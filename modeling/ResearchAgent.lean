import ResearchAgent.Library.Dict
import ResearchAgent.Library.Program
import ResearchAgent.Library.Simulation
import ResearchAgent.Library.Interference
import ResearchAgent.Library.Traces
import ResearchAgent.Library.Filters
import ResearchAgent.Library.Lowering
import ResearchAgent.Library.Interruption
import ResearchAgent.Library.Interleaving
import ResearchAgent.Library.Refinement
import ResearchAgent.Library.HashChain
import ResearchAgent.Library.FixedWindow
import ResearchAgent.Library.Lines
import ResearchAgent.Library.Json
import ResearchAgent.Library.JsonText
import ResearchAgent.JobQueue.Envelope
import ResearchAgent.JobQueue.Memory
import ResearchAgent.JobQueue.Redis
import ResearchAgent.JobQueue.Sends
import ResearchAgent.JobQueue.Conservation
import ResearchAgent.JobQueue.Leases
import ResearchAgent.JobQueue.Lifecycle
import ResearchAgent.JobQueue.MemoryRefinement
import ResearchAgent.JobQueue.RedisRefinement
import ResearchAgent.JobQueue.Agreement
import ResearchAgent.JobQueue.Backend
import ResearchAgent.JobQueue.Copies
import ResearchAgent.JobQueue.Moves
import ResearchAgent.JobQueue.Presence
import ResearchAgent.JobQueue.Backoff
import ResearchAgent.JobQueue.Attempts
import ResearchAgent.JobQueue.Caps
import ResearchAgent.JobQueue.Draining
import ResearchAgent.JobQueue.Fencing
import ResearchAgent.JobQueue.Origins
import ResearchAgent.JobQueue.Ordering
import ResearchAgent.JobQueue.Stamps
import ResearchAgent.JobQueue.Metadata
import ResearchAgent.JobQueue.Markers
import ResearchAgent.JobQueue.Texts
import ResearchAgent.Service.Contracts
import ResearchAgent.Service.Dumps
import ResearchAgent.Service.Operations
import ResearchAgent.Service.Governance
import ResearchAgent.Service.Server
import ResearchAgent.Service.BodyLimit
import ResearchAgent.Service.Worker
import ResearchAgent.Service.Runs
import ResearchAgent.Service.Approval
import ResearchAgent.Service.Isolation
import ResearchAgent.Service.Submission
import ResearchAgent.Service.Finished
import ResearchAgent.Service.RateLimits
import ResearchAgent.Service.RateWindows
import ResearchAgent.Service.AuditStream
import ResearchAgent.Service.Governed
import ResearchAgent.Service.SlotCounters
import ResearchAgent.Service.Reviews
import ResearchAgent.Service.Orphans
import ResearchAgent.Service.Custody
import ResearchAgent.Service.Reconciliation
import ResearchAgent.Service.Completion
import ResearchAgent.Service.Slots
import ResearchAgent.Service.Idempotency
import ResearchAgent.Service.JobStore
import ResearchAgent.Service.StatusTexts
import ResearchAgent.Service.Grounding
import ResearchAgent.Research.Values
import ResearchAgent.Research.Content
import ResearchAgent.Research.Tools
import ResearchAgent.Research.Breaker
import ResearchAgent.Research.Overlaps
import ResearchAgent.Research.Sequences
import ResearchAgent.Research.State
import ResearchAgent.Research.Gathering
import ResearchAgent.Research.Reports
import ResearchAgent.Research.Analyst
import ResearchAgent.Research.Workflow
import ResearchAgent.Research.Executions
import ResearchAgent.Research.Fetching
import ResearchAgent.Research.Screening
import ResearchAgent.Research.Stability
import ResearchAgent.Research.Fences
import ResearchAgent.Research.Calls
import ResearchAgent.Research.Reporting
import ResearchAgent.Research.Budgets
import ResearchAgent.Research.Dialogue
import ResearchAgent.Research.Circuits
import ResearchAgent.Research.Conclusions
import ResearchAgent.Research.Provenance
import ResearchAgent.Research.Figures
import ResearchAgent.Research.Answers
import ResearchAgent.Research.Requests
import ResearchAgent.Research.RoundTrips
import ResearchAgent.Service.Identity
