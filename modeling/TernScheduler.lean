import TernScheduler.Library.KeyedTable
import TernScheduler.Library.Watched
import TernScheduler.Library.Ledger
import TernScheduler.Library.Periodic
import TernScheduler.Library.Path
import TernScheduler.Library.Halting
import TernScheduler.Library.Binary64
import TernScheduler.Library.Numerals
import TernScheduler.Number
import TernScheduler.Datastore.Watched
import TernScheduler.Datastore.Contract
import TernScheduler.Datastore.Effects
import TernScheduler.Datastore.Alone
import TernScheduler.Datastore.LeaseMethods
import TernScheduler.Datastore.Memory
import TernScheduler.Datastore.Pages
import TernScheduler.Datastore.PageKeys
import TernScheduler.Datastore.Polling
import TernScheduler.Datastore.Backends
import TernScheduler.Datastore.TaskMethods
import TernScheduler.System
import TernScheduler.Controller.Watched
import TernScheduler.Controller.Session
import TernScheduler.Controller.Contract
import TernScheduler.Controller.WorkConformance
import TernScheduler.Controller.LeaseConformance
import TernScheduler.Controller.Conformance
import TernScheduler.Controller.Runs
import TernScheduler.Controller.TaskProgress
import TernScheduler.Controller.Leases
import TernScheduler.Controller.LeasedWork
import TernScheduler.Controller.Recurrence
import TernScheduler.Controller.HandoverWork
import TernScheduler.Controller.Handover
import TernScheduler.Controller.LeaseLedger
import TernScheduler.Controller.Course
import TernScheduler.Controller.CourseWork
import TernScheduler.Controller.CourseCalls
import TernScheduler.Controller.Creation
import TernScheduler.Controller.TaskWork
import TernScheduler.Controller.Traces
import TernScheduler.Controller.RepairRuns
import TernScheduler.JsDate
import TernScheduler.Cron.Next
import TernScheduler.Cron.Align
import TernScheduler.Cron.Search
import TernScheduler.Cron.Zones
import TernScheduler.Cron.FixedOffset
import TernScheduler.Cron.Matching
import TernScheduler.Cron.Horizon
import TernScheduler.Cron.Forward
import TernScheduler.Cron.Expression
import TernScheduler.Cron.Rewriting
import TernScheduler.Cron.FieldValues
import TernScheduler.Cron.Grammar
import TernScheduler.TaskCreation
import TernScheduler.Cron.Definition
import TernScheduler.PollingCallback
import TernScheduler.Properties.SingleLaunch
import TernScheduler.Properties.PasturePermanence
import TernScheduler.Properties.NoOverlap
import TernScheduler.Properties.SinglePending
import TernScheduler.Properties.DisabledGrowth
import TernScheduler.Properties.CompletionNotice
import TernScheduler.Properties.LosingCalls
import TernScheduler.Properties.NeverDead
import TernScheduler.Properties.LeaseExclusion
import TernScheduler.Properties.LeaseOwnership
import TernScheduler.Properties.KeyedMemory
import TernScheduler.Properties.RepairMemory
import TernScheduler.Properties.PageWalk
import TernScheduler.Properties.BackendAgreement
import TernScheduler.Properties.TaskHistory
import TernScheduler.Properties.CompletionOnce
import TernScheduler.Properties.TruthfulEvents
import TernScheduler.Properties.CreationRecovery
import TernScheduler.Properties.CronTermination
import TernScheduler.Properties.ZoneIndependence
import TernScheduler.Properties.LaunchRecords
import TernScheduler.Properties.DisableRequests
import TernScheduler.Properties.BadDefinitions
import TernScheduler.Properties.LeaseOutcomes
import TernScheduler.Properties.LeaseRetries
import TernScheduler.Properties.FirstErrors
import TernScheduler.Properties.UncountedRetries
import TernScheduler.Properties.RepairCloses
import TernScheduler.Properties.EarliestTime
import TernScheduler.Properties.MatchingTime
import TernScheduler.Properties.ForwardTime
import TernScheduler.Properties.RequesterClock
import TernScheduler.Properties.DueRows
import TernScheduler.Properties.SecondsLater
import TernScheduler.Properties.StopDrains
import TernScheduler.Properties.PagingEnds
import TernScheduler.Properties.FieldSafety
import TernScheduler.Properties.CronGrammar
import TernScheduler.Properties.AcceptedTimes
import TernScheduler.Properties.WiredLaunches
import TernScheduler.Properties.ExecutionTimes
import TernScheduler.Properties.Isolation
import TernScheduler.Properties.CronJobs
import TernScheduler.Properties.OnceJobs
import TernScheduler.Properties.CronSuccession
import TernScheduler.Properties.PollLoops
import TernScheduler.Properties.PollRotation
import TernScheduler.Properties.TimeEncoding
import TernScheduler.Properties.Recovery
