import KubeAutopsy.Theory.Transition
import KubeAutopsy.Theory.Program
import KubeAutopsy.Theory.Refinement
import KubeAutopsy.Theory.MergePatch
import KubeAutopsy.Theory.Bytes
import KubeAutopsy.Theory.Utf8
import KubeAutopsy.Theory.Runes
import KubeAutopsy.Theory.ObjectNames
import KubeAutopsy.Theory.Admission
import KubeAutopsy.Theory.Clock
import KubeAutopsy.Theory.Sorting
import KubeAutopsy.Theory.History
import KubeAutopsy.Theory.Lines
import KubeAutopsy.Theory.Slices
import KubeAutopsy.Theory.Fragments
import KubeAutopsy.Theory.Fields
import KubeAutopsy.Theory.Spacing
import KubeAutopsy.Theory.Words
import KubeAutopsy.Theory.Layout
import KubeAutopsy.Theory.Substitute
import KubeAutopsy.Theory.Escape
import KubeAutopsy.Theory.Json
import KubeAutopsy.Theory.Schemas
import KubeAutopsy.Theory.Cost
import KubeAutopsy.Theory.Tickers
import KubeAutopsy.Theory.Heaps
import KubeAutopsy.Api.Types
import KubeAutopsy.Api.Operations
import KubeAutopsy.Api.Store
import KubeAutopsy.Api.Document
import KubeAutopsy.Api.DeepCopy
import KubeAutopsy.Controller.Reconciler
import KubeAutopsy.Controller.GarbageCollector
import KubeAutopsy.Controller.GcLoop
import KubeAutopsy.Controller.Webhook
import KubeAutopsy.Controller.Slack
import KubeAutopsy.Controller.Metrics
import KubeAutopsy.Controller.Payload
import KubeAutopsy.Controller.ObjectCache
import KubeAutopsy.Agent.Names
import KubeAutopsy.Agent.Reporter
import KubeAutopsy.Agent.LogCapture
import KubeAutopsy.Agent.LogTail
import KubeAutopsy.Agent.LogParse
import KubeAutopsy.Agent.LogFraming
import KubeAutopsy.Agent.LogTruncate
import KubeAutopsy.Agent.LogText
import KubeAutopsy.Agent.LogAttempts
import KubeAutopsy.Agent.Attribution
import KubeAutopsy.Agent.Classification
import KubeAutopsy.Agent.Cooldown
import KubeAutopsy.Agent.Tracer
import KubeAutopsy.Agent.Handler
import KubeAutopsy.Agent.Handling
import KubeAutopsy.Agent.Run
import KubeAutopsy.Agent.Shutdown
import KubeAutopsy.Agent.Suppression
import KubeAutopsy.Agent.CrashLoop
import KubeAutopsy.Agent.Budget
import KubeAutopsy.Agent.OomEvent
import KubeAutopsy.Agent.Kprobe
import KubeAutopsy.Agent.Identity
import KubeAutopsy.Agent.Pending
import KubeAutopsy.Agent.Fidelity
import KubeAutopsy.Config.Settings
import KubeAutopsy.Config.Validate
import KubeAutopsy.Cluster.World
import KubeAutopsy.Cluster.Monotone
import KubeAutopsy.Cluster.Delivery
import KubeAutopsy.Cluster.Duplicates
import KubeAutopsy.Cluster.GivingUp
import KubeAutopsy.Cluster.Retention
import KubeAutopsy.Cluster.Provenance
import KubeAutopsy.Cluster.Telling
import KubeAutopsy.Cluster.Progress
import KubeAutopsy.Cluster.Disclosure
import KubeAutopsy.Cluster.Accepted
