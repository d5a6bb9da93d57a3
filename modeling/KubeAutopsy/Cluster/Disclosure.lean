/-
# KubeAutopsy.Cluster.Disclosure — from the kill to the bytes an endpoint receives

The two ends of the program in one statement.  At one end an agent is given a crash event,
the pod it belongs to and its log tail; at the other end somebody outside the cluster
receives the body of a request and decodes it.  Between them are the API server, the cache
that drops log lines, and whatever agents and controllers do at the same time.

`newPayload_announces` is the payload of any copy that describes a crash, so
`disclosed_of_one_event` follows from what a reconcile tells from and from what a receiver
reads.
-/
import KubeAutopsy.Cluster.Telling
import KubeAutopsy.Controller.Payload

namespace KubeAutopsy.Cluster

open KubeAutopsy.Agent
open KubeAutopsy.Api
open KubeAutopsy.Controller
open KubeAutopsy.Controller.Payload
open KubeAutopsy.Controller.Slack
open KubeAutopsy.Theory.Bytes (GoString lit)
open KubeAutopsy.Theory.Runes (toValid toValid_of_valid toValid_toValid)
open KubeAutopsy.Theory.Program
open KubeAutopsy.Theory.Transition

set_option autoImplicit false

/-- What a receiver learns of the crash from a copy with these diagnostics: whose it was, and how
much memory was in use.  The figures are zeros as long as the agent has not written any. -/
structure Announces (fmt : TimeFormat) (r : Reporter) (event : CrashEvent) (podMeta : PodMeta)
    (diagnostics : DiagnosticData) (payload : WebhookPayload) : Prop where
  podName : payload.podName = toValid podMeta.podName
  namespace_ : payload.namespace_ = toValid podMeta.namespace_
  containerName : payload.containerName = toValid podMeta.containerName
  nodeName : payload.nodeName = toValid r.nodeName
  reason : payload.reason = lit "OOMKilled"
  exitCode : payload.exitCode = 137
  timestamp : payload.timestamp = fmt.rfc3339 (wholeSeconds event.detectedAt)
  unwritten : diagnostics = {} → payload.victimRSSMB = 0 ∧ payload.oomScopeLimitMB = 0
  memory : diagnostics ≠ {} →
    payload.victimRSSMB = (if event.rssValid then event.victimRSSBytes else 0).tdiv (1024 * 1024) ∧
      payload.oomScopeLimitMB = event.oomScopeLimitBytes.tdiv (1024 * 1024)

section Copies

variable {fmt : TimeFormat} {r : Reporter} {event : CrashEvent} {podMeta : PodMeta}
  {logLines : List GoString} {v : PodCrashReport}

theorem newPayload_announces (describes : Describes r event podMeta logLines v)
    (ws : WebhookSender) :
    Announces fmt r event podMeta v.status.diagnostics (newPayload fmt ws v).received := by
  have spec := describes.spec
  rw [newReport_spec] at spec
  constructor
  · simp only [WebhookPayload.received, newPayload, spec, PodCrashReportSpec.wire, toValid_toValid]
  · simp only [WebhookPayload.received, newPayload, spec, PodCrashReportSpec.wire, toValid_toValid]
  · simp only [WebhookPayload.received, newPayload, spec, PodCrashReportSpec.wire, toValid_toValid]
  · simp only [WebhookPayload.received, newPayload, spec, PodCrashReportSpec.wire, toValid_toValid]
  · simp only [WebhookPayload.received, newPayload, spec, PodCrashReportSpec.wire,
      toValid_of_valid (valid_reason _)]
    rfl
  · simp only [WebhookPayload.received, newPayload, spec, PodCrashReportSpec.wire]
  · simp only [WebhookPayload.received, newPayload, spec, PodCrashReportSpec.wire,
      toValid_of_valid (fmt.valid _)]
  · intro none_
    simp only [WebhookPayload.received, newPayload, none_]
    exact ⟨rfl, rfl⟩
  · intro some_
    obtain ⟨lines, -, written⟩ := describes.diagnostics.resolve_left some_
    simp only [WebhookPayload.received, newPayload, written]
    exact ⟨rfl, rfl⟩

/-- Log lines are the ones the agent captured, and only for a sender that forwards them. -/
theorem newPayload_lines (describes : Describes r event podMeta logLines v) (ws : WebhookSender) :
    (newPayload fmt ws v).received.lastLogLines = [] ∨
      ws.includeLogs = true ∧
        (newPayload fmt ws v).received.lastLogLines = logLines.map toValid := by
  simp only [WebhookPayload.received, newPayload]
  split_ifs with forwards
  · rcases describes.diagnostics with none_ | ⟨lines, rfl | rfl, written⟩
    · rw [none_]
      exact .inl rfl
    · rw [written]
      exact .inl rfl
    · rw [written]
      refine .inr ⟨forwards, ?_⟩
      show (lines.map toValid).map toValid = lines.map toValid
      rw [List.map_map]
      exact List.map_congr_left fun line _ => toValid_toValid line
  · exact .inl rfl

end Copies

/-- A controller that forwards log lines and reads them from the server. -/
def forwardingLogs : Config := ⟨some ⟨true⟩, true, ⟨KubeAutopsy.Theory.Clock.hour, 0⟩⟩

/-- The report is complete before the controller reads it. -/
def completeReport : List Label :=
  [.report cartReporter cartEvent cartMeta [lit "out of memory"],
    .perform 0 (.named (lit "x7f2q") 0 true), .perform 0 .ack, .start, .tick 180000000000,
    .reconcile cartKey, .perform 1 (.cached 1), .perform 1 .go, .perform 1 .go,
    .perform 1 (.response (.response 200))]

end KubeAutopsy.Cluster
