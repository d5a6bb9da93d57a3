/-
# KubeAutopsy.Controller.Payload — the request, as its receiver reads it

The whole of `Send` in `internal/controller/webhook.go` up to the moment the request goes
out: the payload, the choice between the two formats by `isSlackURL`, `json.Marshal` and
the headers.  `json.Marshal` cannot fail on these types, and what it writes is the text of
`Theory.Json`.

The receiver of a request has only its bytes.  `decode` and `decodeText` are what it makes
of them, so `request_decodes` says what is told to it: for every report, whatever bytes its
log lines have, one object that reads as the payload.  What the two formats have in common
is that log lines are in it only if the sender forwards them (`newRequest_withLines`).
-/
import KubeAutopsy.Controller.Slack
import KubeAutopsy.Controller.Webhook
import KubeAutopsy.Theory.Json

namespace KubeAutopsy.Controller.Payload

open KubeAutopsy.Api
open KubeAutopsy.Config (Library URL)
open KubeAutopsy.Controller.Slack
open KubeAutopsy.Controller.Webhook
open KubeAutopsy.Theory.Bytes (GoString lit)
open KubeAutopsy.Theory.Json
open KubeAutopsy.Theory.Runes (toValid toValid_of_valid)
open KubeAutopsy.Theory.Slices (Stop)
open KubeAutopsy.Theory.Utf8

set_option autoImplicit false

/-! ## The code -/

/-- What else of the standard library the choice of the format uses. -/
structure Hosts extends Library where
  /-- `u.Hostname()`. -/
  hostname : URL → GoString
  /-- `strings.ToLower`. -/
  toLower : GoString → GoString

def isSlackURL (std : Hosts) (rawURL : GoString) : Bool :=
  (std.parseURL rawURL).any fun u => decide (lit "slack" <:+: std.toLower (std.hostname u))

/-- A sender with all of its fields but the client. -/
structure Endpoint extends Sender where
  authHeader : GoString
  forceSlackFormat : Bool

structure WebhookPayload where
  podName : GoString
  namespace_ : GoString
  containerName : GoString
  nodeName : GoString
  reason : GoString
  exitCode : Int
  timestamp : GoString
  victimRSSMB : Int
  oomScopeLimitMB : Int
  lastLogLines : List GoString
  deriving DecidableEq

def newPayload (fmt : TimeFormat) (ws : WebhookSender) (report : PodCrashReport) : WebhookPayload where
  podName := report.spec.podName
  namespace_ := report.spec.namespace_
  containerName := report.spec.containerName
  nodeName := report.spec.nodeName
  reason := report.spec.terminationReason.text
  exitCode := report.spec.exitCode
  timestamp := fmt.rfc3339 report.spec.timestamp
  victimRSSMB := report.status.diagnostics.victimRSSBytes.tdiv (1024 * 1024)
  oomScopeLimitMB := report.status.diagnostics.oomScopeLimitBytes.tdiv (1024 * 1024)
  -- Log content leaves the cluster only when explicitly allowed.
  lastLogLines := if ws.includeLogs then report.status.diagnostics.lastLogLines else []

/-- The members under the names of the field tags; `omitempty` is on the last. -/
def WebhookPayload.members (payload : WebhookPayload) : Members :=
  [(lit "podName", .text payload.podName),
    (lit "namespace", .text payload.namespace_),
    (lit "containerName", .text payload.containerName),
    (lit "nodeName", .text payload.nodeName),
    (lit "reason", .text payload.reason),
    (lit "exitCode", .number payload.exitCode),
    (lit "timestamp", .text payload.timestamp),
    (lit "victimRssMB", .number payload.victimRSSMB),
    (lit "oomScopeLimitMB", .number payload.oomScopeLimitMB)] ++
  if payload.lastLogLines = [] then []
  else [(lit "lastLogLines", .array (payload.lastLogLines.map .text))]

/-- The members of a `SlackPayload`. -/
def slackMembers (text : GoString) : Members := [(lit "text", .text text)]

/-- The part of an `http.Request` that `Send` sets. -/
structure Request where
  url : GoString
  contentType : GoString
  authorization : Option GoString
  body : GoString
  deriving DecidableEq

section Send

variable (std : Hosts) (fmt : TimeFormat) (ws : Endpoint) (report : PodCrashReport)

def Endpoint.slack : Bool := ws.forceSlackFormat || isSlackURL std ws.url

def marshalled : Except (Stop Empty) GoString :=
  if ws.slack std then do
    let text ← slackText fmt report ws.includeLogs
    return (Value.object (slackMembers text)).write
  else return (Value.object (newPayload fmt ws.toWebhookSender report).members).write

/-- `none` is a URL that `http.NewRequestWithContext` cannot parse. -/
def newRequest : Except (Stop Empty) (Option Request) := do
  let body ← marshalled std fmt ws report
  return (std.parseURL ws.url).map fun _ =>
    { url := ws.url, contentType := lit "application/json",
      authorization := if ws.authHeader ≠ [] then some ws.authHeader else none, body }

end Send

/-! ## The receiver -/

def asText : Value → Option GoString
  | .text s => some s
  | _ => none

def asNumber : Value → Option Int
  | .number n => some n
  | _ => none

def asTexts : Value → Option (List GoString)
  | .array items => items.mapM asText
  | _ => none

def textAt (name : String) (members : Members) : Option GoString :=
  (members.lookup (lit name)).bind asText

def numberAt (name : String) (members : Members) : Option Int :=
  (members.lookup (lit name)).bind asNumber

/-- A list that is missing is empty. -/
def textsAt (name : String) (members : Members) : Option (List GoString) :=
  asTexts ((members.lookup (lit name)).getD (.array []))

def WebhookPayload.ofMembers (members : Members) : Option WebhookPayload := do
  return {
    podName := ← textAt "podName" members
    namespace_ := ← textAt "namespace" members
    containerName := ← textAt "containerName" members
    nodeName := ← textAt "nodeName" members
    reason := ← textAt "reason" members
    exitCode := ← numberAt "exitCode" members
    timestamp := ← textAt "timestamp" members
    victimRSSMB := ← numberAt "victimRssMB" members
    oomScopeLimitMB := ← numberAt "oomScopeLimitMB" members
    lastLogLines := ← textsAt "lastLogLines" members }

/-- The members of a body that is one object. -/
def membersOf (body : GoString) : Option Members :=
  (parse body).bind fun
    | .object members => some members
    | _ => none

def decode (body : GoString) : Option WebhookPayload := (membersOf body).bind WebhookPayload.ofMembers

def decodeText (body : GoString) : Option GoString := (membersOf body).bind (textAt "text")

/-! ## There and back -/

/-- The payload as it arrives: each of its texts is made valid. -/
def WebhookPayload.received (payload : WebhookPayload) : WebhookPayload :=
  { payload with
    podName := toValid payload.podName
    namespace_ := toValid payload.namespace_
    containerName := toValid payload.containerName
    nodeName := toValid payload.nodeName
    reason := toValid payload.reason
    timestamp := toValid payload.timestamp
    lastLogLines := payload.lastLogLines.map toValid }

theorem membersOf_write (members : Members) :
    membersOf (Value.object members).write = some (membersToValid members) := by
  rw [membersOf, parse_write, Value.toValid]
  rfl

theorem membersToValid_lit (name : String) (value : Value) (members : Members) :
    membersToValid ((lit name, value) :: members) =
      (lit name, value.toValid) :: membersToValid members := by
  rw [membersToValid, toValid_of_valid (valid_lit name)]

theorem toValid_texts (lines : List GoString) :
    (Value.array (lines.map .text)).toValid = .array ((lines.map toValid).map .text) := by
  rw [Value.toValid, itemsToValid_eq, List.map_map, List.map_map]
  refine congrArg Value.array (List.map_congr_left fun line _ => ?_)
  rw [Function.comp_apply, Function.comp_apply, Value.toValid]

theorem membersToValid_members (payload : WebhookPayload) :
    membersToValid payload.members = payload.received.members := by
  have last : membersToValid
      (if payload.lastLogLines = [] then []
        else [(lit "lastLogLines", .array (payload.lastLogLines.map .text))]) =
      if payload.received.lastLogLines = [] then []
        else [(lit "lastLogLines", .array (payload.received.lastLogLines.map .text))] := by
    by_cases none_ : payload.lastLogLines = []
    · have none' : payload.received.lastLogLines = [] := by
        rw [WebhookPayload.received, none_]
        rfl
      rw [if_pos none_, if_pos none', membersToValid]
    · have some' : payload.received.lastLogLines ≠ [] := by
        simpa [WebhookPayload.received] using none_
      rw [if_neg none_, if_neg some', membersToValid_lit, toValid_texts, membersToValid]
      rfl
  unfold WebhookPayload.members
  simp only [List.cons_append, List.nil_append, membersToValid_lit, last, Value.toValid]
  rfl

theorem asTexts_texts (lines : List GoString) :
    asTexts (.array (lines.map .text)) = some lines := by
  rw [asTexts]
  induction lines with
  | nil => rfl
  | cons line lines ih =>
      rw [List.map_cons, List.mapM_cons, ih]
      rfl

/-- The tags name different members, so each field gets its own back. -/
theorem ofMembers_members (payload : WebhookPayload) :
    WebhookPayload.ofMembers payload.members = some payload := by
  obtain ⟨podName, namespace_, containerName, nodeName, reason, exitCode, timestamp, rss, limit,
    lines⟩ := payload
  cases lines with
  | nil => rfl
  | cons line lines =>
      have last : textsAt "lastLogLines"
          (WebhookPayload.members ⟨podName, namespace_, containerName, nodeName, reason, exitCode,
            timestamp, rss, limit, line :: lines⟩) = some (line :: lines) :=
        asTexts_texts (line :: lines)
      rw [WebhookPayload.ofMembers, last]
      rfl

theorem decode_members (payload : WebhookPayload) :
    decode (Value.object payload.members).write = some payload.received := by
  rw [decode, membersOf_write, membersToValid_members, Option.bind_some, ofMembers_members]

theorem decodeText_slackMembers (text : GoString) :
    decodeText (Value.object (slackMembers text)).write = some (toValid text) := by
  rw [decodeText, membersOf_write, slackMembers, membersToValid_lit, membersToValid, Value.toValid,
    Option.bind_some]
  rfl

/-! ### Valid strings arrive as they are -/

theorem received_of_valid {fmt : TimeFormat} {ws : WebhookSender} {report : PodCrashReport}
    (valid : StringsValid report) :
    (newPayload fmt ws report).received = newPayload fmt ws report := by
  have lines : ∀ line ∈ (newPayload fmt ws report).lastLogLines, Valid line := by
    intro line member
    rw [newPayload] at member
    split at member
    · exact valid.lastLogLines line member
    · cases member
  have kept : (newPayload fmt ws report).lastLogLines.map toValid =
      (newPayload fmt ws report).lastLogLines := by
    rw [List.map_congr_left fun line member => toValid_of_valid (lines line member), List.map_id']
  rw [WebhookPayload.received, kept]
  simp only [newPayload, toValid_of_valid valid.podName, toValid_of_valid valid.namespace_,
    toValid_of_valid valid.containerName, toValid_of_valid valid.nodeName,
    toValid_of_valid (valid_reason _), toValid_of_valid (fmt.valid _)]

theorem slackText_valid {fmt : TimeFormat} {report : PodCrashReport} {includeLogs : Bool}
    {text : GoString} (valid : StringsValid report)
    (written : slackText fmt report includeLogs = .ok text) : Valid text := by
  obtain ⟨block, made, origin⟩ := slackText_eq fmt report includeLogs
  obtain rfl : slackHeader fmt report ++ logSection block = text :=
    Except.ok.inj (made.symm.trans written)
  refine (valid_slackHeader valid).append (valid_logSection ?_)
  rcases origin with rfl | block
  · exact valid_nil
  · exact valid_slackLogBlock (valid_escapeSlackText (valid_intercalate valid.lastLogLines)) block

/-! ## The request -/

/-- The report with other log lines. -/
def withLines (report : PodCrashReport) (lines : List GoString) : PodCrashReport :=
  { report with status := { report.status with
      diagnostics := { report.status.diagnostics with lastLogLines := lines } } }

section Request

variable {std : Hosts} {fmt : TimeFormat} {ws : Endpoint} {report : PodCrashReport}

/-- The text is never cut out of range, so there is always a body. -/
theorem exists_marshalled (std : Hosts) (fmt : TimeFormat) (ws : Endpoint) (report : PodCrashReport) :
    ∃ body, marshalled std fmt ws report = .ok body ∧
      (ws.slack std = true → ∃ text, slackText fmt report ws.includeLogs = .ok text ∧
        body = (Value.object (slackMembers text)).write) ∧
      (ws.slack std = false →
        body = (Value.object (newPayload fmt ws.toWebhookSender report).members).write) := by
  rw [marshalled]
  cases slack : ws.slack std with
  | true =>
      obtain ⟨block, written, -⟩ := slackText_eq fmt report ws.includeLogs
      refine ⟨_, ?_, fun _ => ⟨_, written, rfl⟩, nofun⟩
      rw [if_pos rfl, written]
      rfl
  | false => exact ⟨_, rfl, nofun, fun _ => rfl⟩

/-- What the two kinds of receivers decode. -/
theorem exists_request (std : Hosts) (fmt : TimeFormat) (ws : Endpoint) (report : PodCrashReport)
    (parses : (std.parseURL ws.url).isSome = true) :
    ∃ req, newRequest std fmt ws report = .ok (some req) ∧
      (ws.slack std = true → ∃ text, slackText fmt report ws.includeLogs = .ok text ∧
        decodeText req.body = some (toValid text)) ∧
      (ws.slack std = false →
        decode req.body = some (newPayload fmt ws.toWebhookSender report).received) := by
  obtain ⟨u, parsed⟩ := Option.isSome_iff_exists.1 parses
  obtain ⟨body, written, slack, plain⟩ := exists_marshalled std fmt ws report
  refine ⟨_, by rw [newRequest, written, parsed]; rfl, fun chosen => ?_, fun chosen => ?_⟩
  · obtain ⟨text, said, rfl⟩ := slack chosen
    exact ⟨text, said, decodeText_slackMembers text⟩
  · exact plain chosen ▸ decode_members (newPayload fmt ws.toWebhookSender report)

/-- The headers do not depend on the report. -/
theorem newRequest_headers {req : Request} (made : newRequest std fmt ws report = .ok (some req)) :
    req.url = ws.url ∧ req.contentType = lit "application/json" ∧
      ∀ value, req.authorization = some value ↔ value = ws.authHeader ∧ value ≠ [] := by
  obtain ⟨body, written, -⟩ := exists_marshalled std fmt ws report
  rw [newRequest, written] at made
  obtain ⟨u, -, rfl⟩ := Option.map_eq_some_iff.1 (Except.ok.inj made)
  refine ⟨rfl, rfl, fun value => ?_⟩
  show (if ws.authHeader ≠ [] then some ws.authHeader else none) = some value ↔ _
  split_ifs with given
  · rw [Option.some.injEq, eq_comm]
    exact ⟨fun same => ⟨same, same ▸ given⟩, fun both => both.1⟩
  · exact ⟨nofun, fun both => absurd (both.1 ▸ both.2) given⟩

/-- **Without leave, no byte of a request depends on the log lines.** -/
theorem newRequest_withLines (silent : ws.includeLogs = false) (lines : List GoString) :
    newRequest std fmt ws (withLines report lines) = newRequest std fmt ws report := by
  have text : slackText fmt (withLines report lines) ws.includeLogs =
      slackText fmt report ws.includeLogs := by
    simp only [slackText, silent, Bool.false_eq_true, false_and, if_false]
    rfl
  have payload : newPayload fmt ws.toWebhookSender (withLines report lines) =
      newPayload fmt ws.toWebhookSender report := by
    simp only [newPayload, silent, Bool.false_eq_true, if_false]
    rfl
  rw [newRequest, newRequest, marshalled, marshalled, text, payload]

end Request

/-- **What is sent is what the receiver reads.**  Whatever is in the report, a sender whose URL
parses sends one request, and its body is one JSON object: the Slack text or the payload, up to
bytes that are no characters and exactly if there are none.  A sender that does not forward log
lines sends the same request whatever they are. -/
theorem request_decodes (std : Hosts) (fmt : TimeFormat) (ws : Endpoint) (report : PodCrashReport)
    (parses : (std.parseURL ws.url).isSome = true) :
    ∃ req, newRequest std fmt ws report = .ok (some req) ∧
      req.url = ws.url ∧ req.contentType = lit "application/json" ∧
      (∀ value, req.authorization = some value ↔ value = ws.authHeader ∧ value ≠ []) ∧
      (ws.slack std = true → ∃ text, slackText fmt report ws.includeLogs = .ok text ∧
        decodeText req.body = some (toValid text) ∧
        (StringsValid report → decodeText req.body = some text)) ∧
      (ws.slack std = false →
        decode req.body = some (newPayload fmt ws.toWebhookSender report).received ∧
        (StringsValid report → decode req.body = some (newPayload fmt ws.toWebhookSender report))) ∧
      (ws.includeLogs = false → ∀ lines,
        newRequest std fmt ws (withLines report lines) = .ok (some req)) := by
  obtain ⟨req, made, slack, plain⟩ := exists_request std fmt ws report parses
  obtain ⟨url, contentType, authorization⟩ := newRequest_headers made
  refine ⟨req, made, url, contentType, authorization, fun chosen => ?_, fun chosen => ?_,
    fun silent lines => ?_⟩
  · obtain ⟨text, said, read⟩ := slack chosen
    refine ⟨text, said, read, fun valid => ?_⟩
    rw [read, toValid_of_valid (slackText_valid valid said)]
  · refine ⟨plain chosen, fun valid => ?_⟩
    rw [plain chosen, received_of_valid valid]
  · rw [newRequest_withLines silent, made]

/-- Hosts without ports, in ASCII. -/
def plainHosts : Hosts :=
  { plainURLs with
    hostname := fun u => u.host
    toLower := List.map fun b => if 0x41 ≤ b ∧ b ≤ 0x5A then b + 0x20 else b }

/-- An endpoint that has the word in its path and not in its host. -/
def forwarding : Endpoint :=
  { includeLogs := true, url := lit "https://example.com/slack", url_ne := by decide,
    authHeader := lit "Bearer abc", forceSlackFormat := false }

/-- A report with a log line that needs escapes and one that is no text. -/
def noisy : PodCrashReport :=
  { status := { diagnostics := { lastLogLines := [lit "a \"b\" <c>\n", [0x61, 0xFF]] } } }

theorem request_decodes_forwarding :
    ∃ req, newRequest plainHosts epoch forwarding noisy = .ok (some req) ∧
      req.authorization = some (lit "Bearer abc") ∧
      ((decode req.body).map fun payload => payload.lastLogLines) =
        some [lit "a \"b\" <c>\n", lit "a\uFFFD"] := by
  obtain ⟨req, made, -, -, authorization, -, plain, -⟩ :=
    request_decodes plainHosts epoch forwarding noisy (by decide +kernel)
  refine ⟨req, made, (authorization _).2 ⟨rfl, by decide⟩, ?_⟩
  rw [(plain (by decide +kernel)).1]
  decide +kernel

end KubeAutopsy.Controller.Payload
