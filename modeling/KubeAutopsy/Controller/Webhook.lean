/-
# KubeAutopsy.Controller.Webhook — what a failed delivery says of its endpoint

The URL of `internal/controller/webhook.go`: `redactedURL` and `scrubURLError`.  The path and
query of a webhook's URL are a credential, so a text that is written about two endpoints on
one host has to be the same text.

A failure is a function of the URL (`Failure.errorAt`): the places in its texts that mention the
URL are the joints between given pieces.  The text of an error that is no `*url.Error` is
scrubbed by substitution, and a `*url.Error` is formatted again around its cause.  The cause
goes out as it is, so the credential survives exactly if the cause's text mentions the URL
(`scrubbed_same_iff`, `cause_leaks`).
-/
import KubeAutopsy.Config.Validate
import KubeAutopsy.Controller.Reconciler
import KubeAutopsy.Theory.Substitute

namespace KubeAutopsy.Controller.Webhook

open KubeAutopsy.Config (Library URL)
open KubeAutopsy.Theory.Bytes (GoString lit cut Separates separates_of_absent)
open KubeAutopsy.Theory.Substitute

set_option autoImplicit false

/-! ## The sender and its errors -/

/-- A sender with its endpoint; `NewWebhookSender` makes none without a URL. -/
structure Sender extends WebhookSender where
  url : GoString
  url_ne : url ≠ []

/-- Error values: a text, a `*url.Error`, and an error with a text of its own around a
cause. -/
inductive Err where
  | text (message : GoString)
  | urlError (op url : GoString) (err : Err)
  | wrap (message : GoString) (err : Err)
  deriving DecidableEq, Repr

/-- `Error()`. -/
def Err.error (std : Library) : Err → GoString
  | .text message => message
  | .urlError op url err => op ++ lit " " ++ std.quote url ++ lit ": " ++ err.error std
  | .wrap message _ => message

/-- `errors.As(err, &uerr)` for a `*url.Error`: its `Op` and its `Err`. -/
def Err.asURLError : Err → Option (GoString × Err)
  | .text _ => none
  | .urlError op _ err => some (op, err)
  | .wrap _ err => err.asURLError

namespace Sender

variable (std : Library) (ws : Sender)

def redactedURL : GoString :=
  match std.parseURL ws.url with
  | none => lit "[redacted]"
  | some u =>
      if u.host = [] then lit "[redacted]" else u.scheme ++ lit "://" ++ u.host ++ lit "/[redacted]"

def scrubURLError : Option Err → Option Err
  | none => none
  | some err =>
      match err.asURLError with
      | some (op, cause) =>
          some (.wrap (op ++ lit " " ++ ws.redactedURL std ++ lit ": " ++ cause.error std) cause)
      | none =>
          if ws.url ≠ [] ∧ ws.url <:+: err.error std then
            some (.text (replaceAll ws.url (ws.redactedURL std) (err.error std)))
          else some err

end Sender

/-! ## Failures as functions of the URL -/

/-- A failure; the lists are the pieces of a text between its mentions of the URL. -/
inductive Failure where
  | plain (pieces : List GoString)
  | request (op : GoString) (cause : List GoString)
  | wrapped (pieces : List GoString) (cause : Failure)
  deriving DecidableEq, Repr

namespace Failure

/-- The error for one URL. -/
def errorAt (url : GoString) : Failure → Err
  | plain pieces => .text (url.intercalate pieces)
  | request op cause => .urlError op url (.text (url.intercalate cause))
  | wrapped pieces cause => .wrap (url.intercalate pieces) (cause.errorAt url)

/-- The request that failed, if the failure is one of a request. -/
def asRequest : Failure → Option (GoString × List GoString)
  | plain _ => none
  | request op cause => some (op, cause)
  | wrapped _ cause => cause.asRequest

/-- The text of a failure that is not one of a request. -/
def pieces : Failure → List GoString
  | plain pieces => pieces
  | request _ _ => []
  | wrapped pieces _ => pieces

end Failure

/-- A piece has nothing of the URL: no byte of its path and query, or at least no place where
the URL starts, not even one that the mention behind the piece completes. -/
inductive Apart (url piece : GoString) : Prop where
  | disjoint (base tail : GoString) (parts : url = base ++ tail) (secret : tail ≠ [])
      (bytes : ∀ b ∈ piece, b ∉ tail)
  | unstarted (separates : Separates url piece)

theorem Apart.separates {url piece : GoString} (apart : Apart url piece) : Separates url piece := by
  cases apart with
  | disjoint base tail parts secret bytes =>
      rw [parts]
      exact separates_of_disjoint secret bytes
  | unstarted separates => exact separates

/-- What is written about a failure at the sender's endpoint. -/
def scrubbed (std : Library) (ws : Sender) (failure : Failure) : Option GoString :=
  (ws.scrubURLError std (some (failure.errorAt ws.url))).map (Err.error std)

section Scrubbing

variable {std : Library} {failure : Failure}

theorem asURLError_at (url : GoString) (failure : Failure) :
    (failure.errorAt url).asURLError =
      failure.asRequest.map fun (op, cause) => (op, Err.text (url.intercalate cause)) := by
  induction failure with
  | plain pieces => rfl
  | request op cause => rfl
  | wrapped pieces cause ih => exact ih

theorem error_at (url : GoString) (other : failure.asRequest = none) :
    (failure.errorAt url).error std = url.intercalate failure.pieces := by
  cases failure with
  | plain pieces => rfl
  | request op cause => cases other
  | wrapped pieces cause => rfl

/-- A failed request: the cause is not looked at. -/
theorem scrubbed_request (ws : Sender) {op : GoString} {cause : List GoString}
    (request : failure.asRequest = some (op, cause)) :
    scrubbed std ws failure =
      some (op ++ lit " " ++ ws.redactedURL std ++ lit ": " ++ ws.url.intercalate cause) := by
  simp only [scrubbed, Sender.scrubURLError, asURLError_at, request, Option.map_some, Err.error]

/-- Any other failure: every mention of the URL is replaced. -/
theorem scrubbed_other (ws : Sender) (other : failure.asRequest = none)
    (apart : ∀ piece ∈ failure.pieces, Apart ws.url piece) :
    scrubbed std ws failure = some ((ws.redactedURL std).intercalate failure.pieces) := by
  have replaced : replaceAll ws.url (ws.redactedURL std) (ws.url.intercalate failure.pieces) =
      (ws.redactedURL std).intercalate failure.pieces :=
    replaceAll_intercalate ws.url_ne fun piece member => (apart piece member).separates
  simp only [scrubbed, Sender.scrubURLError, asURLError_at, other, Option.map_none,
    error_at _ other]
  split
  case isTrue mentioned => simp only [Option.map_some, Err.error, replaced]
  case isFalse unmentioned =>
    have absent : ¬ ws.url <:+: ws.url.intercalate failure.pieces := fun mentioned =>
      unmentioned ⟨ws.url_ne, mentioned⟩
    rw [replaceAll_of_absent absent] at replaced
    simp only [Option.map_some, error_at _ other, replaced]

end Scrubbing

/-- **When the texts about two endpoints on one host are the same text.** -/
theorem scrubbed_same_iff (std : Library) (ws ws2 : Sender) (u : URL) (failure : Failure)
    (parsed : std.parseURL ws.url = some u) (parsed2 : std.parseURL ws2.url = some u)
    (differ : ws.url ≠ ws2.url)
    (apart : failure.asRequest = none →
      ∀ piece ∈ failure.pieces, Apart ws.url piece ∧ Apart ws2.url piece) :
    scrubbed std ws failure = scrubbed std ws2 failure ↔
      ∀ op cause, failure.asRequest = some (op, cause) → cause.length ≤ 1 := by
  have redacted : ws.redactedURL std = ws2.redactedURL std := by
    simp only [Sender.redactedURL, parsed, parsed2]
  cases request : failure.asRequest with
  | none =>
      have clean := apart request
      rw [scrubbed_other ws request fun piece member => (clean piece member).1,
        scrubbed_other ws2 request fun piece member => (clean piece member).2, redacted]
      simp
  | some found =>
      obtain ⟨op, cause⟩ := found
      rw [scrubbed_request ws request, scrubbed_request ws2 request, redacted]
      constructor
      · intro same op' cause' again
        cases again
        by_contra mentions
        have texts := List.append_cancel_left (Option.some.inj same)
        exact differ (intercalate_inj (not_le.1 mentions) texts)
      · intro silent
        have short := silent op cause rfl
        match cause, short with
        | [], _ => rfl
        | [piece], _ => simp only [List.intercalate_singleton]

/-! ## Two endpoints -/

/-- A reader of plain URLs. -/
def plainURLs : Library where
  parseURL raw := (cut (lit "://") raw).map fun (scheme, rest) =>
    ⟨scheme, rest.takeWhile (· ≠ 0x2F)⟩
  quote s := lit "\"" ++ s ++ lit "\""

def hookA : Sender :=
  { includeLogs := false, url := lit "https://hooks.slack.com/services/AAA", url_ne := by decide }

def hookB : Sender :=
  { includeLogs := false, url := lit "https://hooks.slack.com/services/BBB", url_ne := by decide }

/-- A message of a transport that names the URL, as an error of its own. -/
def dialing : Failure := .plain [lit "dial ", lit ": refused"]

/-- A failed request with a cause that does not name it. -/
def refused : Failure := .wrapped [lit "webhook: "] (.request (lit "Post") [lit "refused"])

theorem scrubbed_same_iff_hooks :
    scrubbed plainURLs hookA dialing = scrubbed plainURLs hookB dialing ∧
      scrubbed plainURLs hookA refused = scrubbed plainURLs hookB refused := by
  have parsedA : plainURLs.parseURL hookA.url = some ⟨lit "https", lit "hooks.slack.com"⟩ := by
    decide +kernel
  have parsedB : plainURLs.parseURL hookB.url = some ⟨lit "https", lit "hooks.slack.com"⟩ := by
    decide +kernel
  have iff_ := fun failure => scrubbed_same_iff plainURLs hookA hookB _ failure parsedA parsedB
    (by decide)
  constructor
  · apply (iff_ dialing ?_).2
    · intro op cause request
      cases request
    · intro _ piece member
      simp only [dialing, Failure.pieces, List.mem_cons, List.not_mem_nil, or_false] at member
      obtain rfl | rfl := member
      all_goals
        exact ⟨.unstarted (separates_of_absent (by decide +kernel) (by decide +kernel)),
          .unstarted (separates_of_absent (by decide +kernel) (by decide +kernel))⟩
  · apply (iff_ refused (fun other => by cases other)).2
    intro op cause request
    cases request
    decide

/-- **A transport that names the URL gets it out**: the client puts its error into a
`*url.Error` as the cause. -/
theorem cause_leaks :
    scrubbed plainURLs hookA (.request (lit "Post") [lit "dial ", lit ": refused"]) =
      some (lit ("Post https://hooks.slack.com/[redacted]: " ++
        "dial https://hooks.slack.com/services/AAA: refused")) ∧
    scrubbed plainURLs hookA (.request (lit "Post") [lit "dial ", lit ": refused"]) ≠
      scrubbed plainURLs hookB (.request (lit "Post") [lit "dial ", lit ": refused"]) := by
  decide +kernel

end KubeAutopsy.Controller.Webhook
