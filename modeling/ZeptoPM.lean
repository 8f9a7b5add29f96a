import ZeptoPM.HashMap
import ZeptoPM.SqlTable
import ZeptoPM.Machine
import ZeptoPM.Text
import ZeptoPM.Types
import ZeptoPM.World
import ZeptoPM.Store
import ZeptoPM.Scheduler
import ZeptoPM.Planner
import ZeptoPM.Json
import ZeptoPM.Sqlite
import ZeptoPM.Engine
import ZeptoPM.EngineSpec
import ZeptoPM.Calls
import ZeptoPM.ChannelMoves
import ZeptoPM.Supervision
import ZeptoPM.Dependency
import ZeptoPM.Commute
import ZeptoPM.Schedule
import ZeptoPM.PlanSchedule
import ZeptoPM.PlanExecution
import ZeptoPM.Review
import ZeptoPM.Core
import ZeptoPM.JobMoves
import ZeptoPM.Integrity
import ZeptoPM.Prompts
import ZeptoPM.Daemon
import ZeptoPM.Handlers
import ZeptoPM.Runs
import ZeptoPM.Statements
import ZeptoPM.Interrupt
import ZeptoPM.Turns
import ZeptoPM.Isolation
import ZeptoPM.Recovery
import ZeptoPM.Handover
import ZeptoPM.Outcomes
import ZeptoPM.Crash
import ZeptoPM.RunStatus
import ZeptoPM.Progress
import ZeptoPM.Queue
import ZeptoPM.Attendance
import ZeptoPM.Purpose
import ZeptoPM.Quiet
import ZeptoPM.Opening
import ZeptoPM.Network
import ZeptoPM.Passing
import ZeptoPM.TurnHeld
import ZeptoPM.Cancel
import ZeptoPM.Traversal
import ZeptoPM.WriteThrough
import ZeptoPM.LateEvents
import ZeptoPM.Reload
import ZeptoPM.Server
import ZeptoPM.Paths
import ZeptoPM.Capsule
import ZeptoPM.Sandbox
import ZeptoPM.Bridge
import ZeptoPM.Replies
import ZeptoPM.Responses
import ZeptoPM.Outstanding
import ZeptoPM.Fleet
import ZeptoPM.Incarnations
import ZeptoPM.Stopping
import ZeptoPM.Conserving
import ZeptoPM.ReviewGate
import ZeptoPM.Delimiters
import ZeptoPM.Utf8
import ZeptoPM.Extraction
import ZeptoPM.Payload
import ZeptoPM.Rendering
import ZeptoPM.PlanText
import ZeptoPM.Verdict
import ZeptoPM.CapsuleTask
import ZeptoPM.Closing
import ZeptoPM.InForce
import ZeptoPM.Sessions
import ZeptoPM.Attempts
import ZeptoPM.Retries
import ZeptoPM.Revisions
import ZeptoPM.PlanCopy
import ZeptoPM.Promotion
import ZeptoPM.SlidingWindow
import ZeptoPM.RateLimit
import ZeptoPM.Delegations
import ZeptoPM.Backoff
import ZeptoPM.SelfQueue
import ZeptoPM.EventQueue
import ZeptoPM.Results
import ZeptoPM.Timeouts
import ZeptoPM.Course
import ZeptoPM.ChannelArtifact
import ZeptoPM.LastChannel
import ZeptoPM.Crew
import ZeptoPM.IdleWorkers
import ZeptoPM.Dialogue
import ZeptoPM.Orchestrate
import ZeptoPM.Pipeline
import ZeptoPM.Queries
import ZeptoPM.Tail
import ZeptoPM.Worker
import ZeptoPM.Link
import ZeptoPM.Parcels
import ZeptoPM.Delivery
import ZeptoPM.Settling
import ZeptoPM.Lifetimes
import ZeptoPM.Retention
import ZeptoPM.Restarts
import ZeptoPM.Supervising
import ZeptoPM.Frontdoor
import ZeptoPM.Staffing
import ZeptoPM.SessionWindow
import ZeptoPM.Roster
import ZeptoPM.Shown
import ZeptoPM.Serving
import ZeptoPM.Requests
