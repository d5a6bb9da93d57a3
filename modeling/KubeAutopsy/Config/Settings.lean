/-
# KubeAutopsy.Config.Settings — defaults, environment and flags

`internal/config/config.go` and how `loadConfig` of `cmd/kube-autopsy/main.go` uses it:
`NewConfig`, `LoadFromEnv`, `BindFlags`, the parsed flags, `ResolveSecrets`.  A flag has a
setting, and a setting is a field of the configuration with its type; the layers are writes
to these fields in the sense of `Theory.Fields`.  The flag package is what it is documented
to be: registering a flag stores its default, and parsing stores the values given, in order.

A flag wins over the environment and this over the default, for every flag but
`--max-reports`, whose variable is never read (`loadConfig_documented_iff`).
-/
import KubeAutopsy.Agent.LogCapture
import KubeAutopsy.Theory.Fields

namespace KubeAutopsy.Config

open KubeAutopsy.Agent (atoi)
open KubeAutopsy.Theory.Bytes (GoString lit)
open KubeAutopsy.Theory.Fields

set_option autoImplicit false
set_option linter.dupNamespace false

/-! ## The configuration -/

inductive Kind where
  | int
  | bool
  | string
  deriving DecidableEq, Repr

abbrev Kind.Value : Kind → Type
  | .int => Int
  | .bool => Bool
  | .string => GoString

/-- The flags that `BindFlags` registers. -/
inductive Setting where
  | ttlHours
  | logTailLines
  | podOwnerReference
  | maxConcurrentReports
  | reportCooldownSeconds
  | captureLogs
  | metricsBindAddr
  | metricsSecure
  | healthProbeBindAddr
  | webhookURL
  | webhookIncludeLogs
  | leaderElect
  | maxConcurrentReconciles
  | maxReports
  deriving DecidableEq, Repr

abbrev Setting.kind : Setting → Kind
  | .ttlHours | .logTailLines | .maxConcurrentReports | .reportCooldownSeconds => .int
  | .maxConcurrentReconciles | .maxReports => .int
  | .podOwnerReference | .captureLogs | .metricsSecure | .webhookIncludeLogs | .leaderElect => .bool
  | .metricsBindAddr | .healthProbeBindAddr | .webhookURL => .string

abbrev Setting.Value (s : Setting) : Type := s.kind.Value

structure Config where
  ttlHours : Int
  logTailLines : Int
  podOwnerReference : Bool
  maxConcurrentReports : Int
  reportCooldownSeconds : Int
  captureLogs : Bool
  metricsBindAddr : GoString
  metricsSecure : Bool
  healthProbeBindAddr : GoString
  webhookURL : GoString
  webhookAuthHeader : GoString := []
  webhookIncludeLogs : Bool
  leaderElect : Bool
  maxConcurrentReconciles : Int
  maxReports : Int
  webhookURLWasFlag : Bool := false
  /-- Kept apart from `webhookURL` until the flags have been parsed. -/
  webhookURLFromEnv : GoString := []
  deriving DecidableEq, Repr

def newConfig : Config where
  ttlHours := 24
  logTailLines := 50
  podOwnerReference := false
  maxConcurrentReports := 8
  reportCooldownSeconds := 30
  captureLogs := false
  metricsBindAddr := lit ":8443"
  metricsSecure := true
  healthProbeBindAddr := lit ":8081"
  webhookURL := []
  webhookIncludeLogs := false
  leaderElect := true
  maxConcurrentReconciles := 4
  maxReports := 10000

def Config.get (c : Config) : (s : Setting) → s.Value
  | .ttlHours => c.ttlHours
  | .logTailLines => c.logTailLines
  | .podOwnerReference => c.podOwnerReference
  | .maxConcurrentReports => c.maxConcurrentReports
  | .reportCooldownSeconds => c.reportCooldownSeconds
  | .captureLogs => c.captureLogs
  | .metricsBindAddr => c.metricsBindAddr
  | .metricsSecure => c.metricsSecure
  | .healthProbeBindAddr => c.healthProbeBindAddr
  | .webhookURL => c.webhookURL
  | .webhookIncludeLogs => c.webhookIncludeLogs
  | .leaderElect => c.leaderElect
  | .maxConcurrentReconciles => c.maxConcurrentReconciles
  | .maxReports => c.maxReports

def Config.set (c : Config) : (s : Setting) → s.Value → Config
  | .ttlHours, v => { c with ttlHours := v }
  | .logTailLines, v => { c with logTailLines := v }
  | .podOwnerReference, v => { c with podOwnerReference := v }
  | .maxConcurrentReports, v => { c with maxConcurrentReports := v }
  | .reportCooldownSeconds, v => { c with reportCooldownSeconds := v }
  | .captureLogs, v => { c with captureLogs := v }
  | .metricsBindAddr, v => { c with metricsBindAddr := v }
  | .metricsSecure, v => { c with metricsSecure := v }
  | .healthProbeBindAddr, v => { c with healthProbeBindAddr := v }
  | .webhookURL, v => { c with webhookURL := v }
  | .webhookIncludeLogs, v => { c with webhookIncludeLogs := v }
  | .leaderElect, v => { c with leaderElect := v }
  | .maxConcurrentReconciles, v => { c with maxConcurrentReconciles := v }
  | .maxReports, v => { c with maxReports := v }

/-- The settings as fields. -/
def settings : Record Setting Setting.Value Config where
  get := Config.get
  set := Config.set
  get_set := by
    intro c s v
    funext t
    cases s <;> cases t <;> rfl

/-- Values for settings, in the order they are given. -/
abbrev Writes := List (Σ s : Setting, s.Value)

/-! ## The environment -/

/-- `strconv.ParseBool`. -/
def parseBool (v : GoString) : Option Bool :=
  if v ∈ ["1", "t", "T", "TRUE", "true", "True"].map lit then some true
  else if v ∈ ["0", "f", "F", "FALSE", "false", "False"].map lit then some false
  else none

def Kind.parse : (k : Kind) → GoString → Option k.Value
  | .int, v => atoi v
  | .bool, v => parseBool v
  | .string, v => some v

/-- The encodings of the white space that `unicode.IsSpace` knows. -/
def whiteSpace : List GoString :=
  [[9], [10], [11], [12], [13], [32], [0xC2, 0x85], [0xC2, 0xA0], [0xE1, 0x9A, 0x80]] ++
    (List.range 11).map (fun k => [0xE2, 0x80, 0x80 + UInt8.ofNat k]) ++
    [[0xE2, 0x80, 0xA8], [0xE2, 0x80, 0xA9], [0xE2, 0x80, 0xAF], [0xE2, 0x81, 0x9F], [0xE3, 0x80, 0x80]]

/-- Remove what is listed from the start, as often as it is there. -/
def trimStart (listed : List GoString) : Nat → GoString → GoString
  | 0, s => s
  | fuel + 1, s =>
      match listed.find? fun w => w.isPrefixOf s with
      | some w => trimStart listed fuel (s.drop w.length)
      | none => s

/-- `strings.TrimSpace`. -/
def trimSpace (s : GoString) : GoString :=
  let left := trimStart whiteSpace s.length s
  (trimStart (whiteSpace.map List.reverse) left.length left.reverse).reverse

/-- A variable that does not parse. -/
structure EnvError where
  key : GoString
  value : GoString
  wanted : Kind
  deriving DecidableEq, Repr

/-- Its text; `quote` is the verb `%q`. -/
def EnvError.text (quote : GoString → GoString) (e : EnvError) : GoString :=
  e.key ++ lit ": " ++ quote e.value ++
    match e.wanted with
    | .int => lit " is not an integer"
    | .bool => lit " is not a boolean (use true or false)"
    | .string => []

/-- `os.Getenv`: an unset variable is empty. -/
abbrev Env := GoString → GoString

/-- `envInt`, `envBool` or `envString`, by the type of the target. -/
def envVar (env : Env) (key : GoString) (target : Setting) (l : Config × List EnvError) :
    Config × List EnvError :=
  if env key = [] then l
  else
    match target.kind.parse (env key) with
    | none => (l.1, l.2 ++ [⟨key, env key, target.kind⟩])
    | some value => (l.1.set target value, l.2)

/-- The calls of these in `LoadFromEnv`. -/
def envVars : List (GoString × Setting) :=
  [(lit "KUBE_AUTOPSY_TTL_HOURS", .ttlHours),
   (lit "KUBE_AUTOPSY_LOG_TAIL_LINES", .logTailLines),
   (lit "KUBE_AUTOPSY_MAX_CONCURRENT_REPORTS", .maxConcurrentReports),
   (lit "KUBE_AUTOPSY_MAX_CONCURRENT_RECONCILES", .maxConcurrentReconciles),
   (lit "KUBE_AUTOPSY_REPORT_COOLDOWN_SECONDS", .reportCooldownSeconds),
   (lit "KUBE_AUTOPSY_POD_OWNER_REFERENCE", .podOwnerReference),
   (lit "KUBE_AUTOPSY_CAPTURE_LOGS", .captureLogs),
   (lit "KUBE_AUTOPSY_METRICS_SECURE", .metricsSecure),
   (lit "KUBE_AUTOPSY_WEBHOOK_INCLUDE_LOGS", .webhookIncludeLogs),
   (lit "KUBE_AUTOPSY_LEADER_ELECT", .leaderElect),
   (lit "KUBE_AUTOPSY_METRICS_BIND_ADDR", .metricsBindAddr),
   (lit "KUBE_AUTOPSY_HEALTH_PROBE_BIND_ADDR", .healthProbeBindAddr)]

def Config.loadWebhookURL (env : Env) (c : Config) : Config :=
  if env (lit "KUBE_AUTOPSY_WEBHOOK_URL") = [] then c
  else { c with webhookURLFromEnv := trimSpace (env (lit "KUBE_AUTOPSY_WEBHOOK_URL")) }

def Config.loadWebhookAuthHeader (env : Env) (c : Config) : Config :=
  if env (lit "KUBE_AUTOPSY_WEBHOOK_AUTH_HEADER") = [] then c
  else { c with webhookAuthHeader := trimSpace (env (lit "KUBE_AUTOPSY_WEBHOOK_AUTH_HEADER")) }

/-- The configuration and the errors that are joined; there is no error if there are none. -/
def loadFromEnv (env : Env) (c : Config) : Config × List EnvError :=
  let l := envVars.foldl (fun l var => envVar env var.1 var.2 l) (c, [])
  ((l.1.loadWebhookURL env).loadWebhookAuthHeader env, l.2)

/-! ## The flags -/

def Setting.flagName : Setting → GoString
  | .ttlHours => lit "ttl-hours"
  | .logTailLines => lit "log-tail-lines"
  | .podOwnerReference => lit "pod-owner-reference"
  | .maxConcurrentReports => lit "max-concurrent-reports"
  | .reportCooldownSeconds => lit "report-cooldown-seconds"
  | .captureLogs => lit "capture-logs"
  | .metricsBindAddr => lit "metrics-bind-addr"
  | .metricsSecure => lit "metrics-secure"
  | .healthProbeBindAddr => lit "health-probe-bind-addr"
  | .webhookURL => lit "webhook-url"
  | .webhookIncludeLogs => lit "webhook-include-logs"
  | .leaderElect => lit "leader-elect"
  | .maxConcurrentReconciles => lit "max-concurrent-reconciles"
  | .maxReports => lit "max-reports"

/-- The flags in the order they are registered. -/
def flags : List Setting :=
  [.ttlHours, .logTailLines, .podOwnerReference, .maxConcurrentReports, .reportCooldownSeconds,
   .captureLogs, .metricsBindAddr, .metricsSecure, .healthProbeBindAddr, .webhookURL,
   .webhookIncludeLogs, .leaderElect, .maxConcurrentReconciles, .maxReports]

/-- The default a flag is registered with. -/
def Config.flagDefault (c : Config) : (s : Setting) → s.Value
  | .webhookURL => ([] : GoString)
  | s => c.get s

/-- Registering a flag stores its default. -/
def bindFlags (c : Config) : Config :=
  settings.assign c (flags.map fun s => ⟨s, c.flagDefault s⟩)

/-- `fs.Parse`, given what was passed. -/
def parse (c : Config) (passed : Writes) : Config := settings.assign c passed

/-- `fs.Visit` goes over the flags that were passed. -/
def webhookURLFromFlag (passed : Writes) : Bool :=
  passed.any fun p => p.1.flagName = lit "webhook-url"

def resolveSecrets (c : Config) (passed : Writes) : Config :=
  if webhookURLFromFlag passed then { c with webhookURLWasFlag := true }
  else { c with webhookURLWasFlag := false, webhookURL := c.webhookURLFromEnv }

/-- `loadConfig` up to the checks it ends with: the configuration, and what `LoadFromEnv`
returned. -/
def loadConfig (env : Env) (passed : Writes) : Config × List EnvError :=
  let loaded := loadFromEnv env newConfig
  (resolveSecrets (parse (bindFlags loaded.1) passed) passed, loaded.2)

/-! ## What is documented -/

/-- `KUBE_AUTOPSY_` and the name of the flag, in upper case, with underscores for dashes. -/
def Setting.envName (s : Setting) : GoString :=
  lit "KUBE_AUTOPSY_" ++ s.flagName.map fun b =>
    if b = 45 then 95 else if 97 ≤ b ∧ b ≤ 122 then b - 32 else b

/-- The value the environment has for a setting. -/
def Setting.fromEnv (env : Env) (s : Setting) : Option s.Value :=
  if env s.envName = [] then none
  else
    match s with
    | .webhookURL => some (trimSpace (env Setting.webhookURL.envName))
    | s => s.kind.parse (env s.envName)

/-- Flag over environment over default. -/
def documented (env : Env) (passed : Writes) (s : Setting) : s.Value :=
  (latest s passed).getD ((s.fromEnv env).getD (newConfig.get s))

/-- The variable is set and is not a value of its type. -/
def Setting.Rejected (env : Env) (s : Setting) : Prop :=
  s.kind ≠ .string ∧ env s.envName ≠ [] ∧ s.kind.parse (env s.envName) = none

/-- Everything that is said about flags, environment and defaults. -/
structure Documented (env : Env) (passed : Writes) : Prop where
  precedence : (loadConfig env passed).2 = [] →
    ∀ s, (loadConfig env passed).1.get s = documented env passed s
  rejects : (loadFromEnv env newConfig).2 ≠ [] ↔ ∃ s, Setting.Rejected env s
  unchanged : ∀ s, Setting.Rejected env s → (loadFromEnv env newConfig).1.get s = newConfig.get s

/-! ## Loading the environment -/

/-- What a variable says about its target. -/
def reading (env : Env) (var : GoString × Setting) : Option var.2.Value :=
  if env var.1 = [] then none else var.2.kind.parse (env var.1)

theorem envVars_config (env : Env) (vars : List (GoString × Setting)) (l : Config × List EnvError) :
    (vars.foldl (fun l var => envVar env var.1 var.2 l) l).1 =
      settings.assign l.1 (writesOf Prod.snd (reading env) vars) := by
  induction vars generalizing l with
  | nil => rfl
  | cons var vars ih =>
      rw [List.foldl_cons, ih]
      unfold writesOf
      rw [List.filterMap_cons]
      unfold reading envVar
      by_cases unset : env var.1 = []
      · simp [unset]
      · cases parsed : var.2.kind.parse (env var.1) with
        | none => simp [unset]
        | some value =>
            simp only [unset, if_false, Option.map_some]
            rfl

theorem envVars_errors (env : Env) (vars : List (GoString × Setting)) (l : Config × List EnvError) :
    (vars.foldl (fun l var => envVar env var.1 var.2 l) l).2 = [] ↔
      l.2 = [] ∧ ∀ var ∈ vars, env var.1 ≠ [] → var.2.kind.parse (env var.1) ≠ none := by
  induction vars generalizing l with
  | nil => simp
  | cons var vars ih =>
      rw [List.foldl_cons, ih, List.forall_mem_cons]
      unfold envVar
      by_cases unset : env var.1 = []
      · simp [unset]
      · cases parsed : var.2.kind.parse (env var.1) with
        | none => simp [unset]
        | some value => simp [unset]

/-- Every variable read is that of its target, and two flags have none. -/
theorem envVars_names : ∀ var ∈ envVars,
    var.1 = var.2.envName ∧ var.2 ≠ .maxReports ∧ var.2 ≠ .webhookURL := by
  decide +kernel

theorem envVars_distinct : (envVars.map Prod.snd).Nodup := by decide

theorem mem_envVars {s : Setting} (reports : s ≠ .maxReports) (url : s ≠ .webhookURL) :
    (s.envName, s) ∈ envVars := by
  cases s <;> first | exact absurd rfl reports | exact absurd rfl url | decide +kernel

theorem get_loadWebhook (env : Env) (c : Config) (s : Setting) :
    ((c.loadWebhookURL env).loadWebhookAuthHeader env).get s = c.get s := by
  unfold Config.loadWebhookAuthHeader Config.loadWebhookURL
  split <;> split <;> cases s <;> rfl

theorem get_loadFromEnv (env : Env) (c : Config) (s : Setting) :
    (loadFromEnv env c).1.get s =
      (latest s (writesOf Prod.snd (reading env) envVars)).getD (c.get s) := by
  unfold loadFromEnv
  rw [get_loadWebhook, envVars_config]
  exact get_assign settings c _ s

theorem get_loadFromEnv_read (env : Env) (c : Config) {s : Setting} (reports : s ≠ .maxReports)
    (url : s ≠ .webhookURL) :
    (loadFromEnv env c).1.get s = (reading env (s.envName, s)).getD (c.get s) := by
  rw [get_loadFromEnv]
  congr 1
  exact latest_writesOf envVars_distinct (mem_envVars reports url)

theorem get_loadFromEnv_unread (env : Env) (c : Config) {s : Setting}
    (unread : s = .maxReports ∨ s = .webhookURL) : (loadFromEnv env c).1.get s = c.get s := by
  have absent : s ∉ envVars.map Prod.snd := by
    rcases unread with rfl | rfl <;> decide
  rw [get_loadFromEnv, latest_writesOf_absent absent]
  rfl

theorem loadFromEnv_errors (env : Env) (c : Config) :
    (loadFromEnv env c).2 = [] ↔ ∀ s ≠ Setting.maxReports, ¬ Setting.Rejected env s := by
  unfold loadFromEnv
  rw [envVars_errors]
  constructor
  · rintro ⟨-, all⟩ s reports ⟨kind, set, rejected⟩
    by_cases url : s = .webhookURL
    · subst url
      exact kind rfl
    · exact all _ (mem_envVars reports url) set rejected
  · intro none_rejected
    refine ⟨rfl, ?_⟩
    intro var member set rejected
    obtain ⟨name, reports, -⟩ := envVars_names var member
    rw [name] at set rejected
    refine none_rejected var.2 reports ⟨?_, set, rejected⟩
    intro string
    rw [string] at rejected
    cases rejected

/-! ## The flags on top -/

theorem assign_webhookURLFromEnv (c : Config) (writes : Writes) :
    (settings.assign c writes).webhookURLFromEnv = c.webhookURLFromEnv := by
  induction writes generalizing c with
  | nil => rfl
  | cons w writes ih =>
      show (settings.assign (c.set w.1 w.2) writes).webhookURLFromEnv = _
      rw [ih]
      obtain ⟨s, v⟩ := w
      cases s <;> rfl

theorem get_bindFlags (c : Config) (s : Setting) : (bindFlags c).get s = c.flagDefault s := by
  have listed : s ∈ flags := by
    cases s <;> decide
  have distinct : (flags.map id).Nodup := by decide
  have all : (flags.map fun s => (⟨s, c.flagDefault s⟩ : Σ s : Setting, s.Value)) =
      writesOf id (fun s => some (c.flagDefault s)) flags := by
    unfold writesOf
    rw [← List.filterMap_eq_map]
    rfl
  have last : latest s (writesOf id (fun s => some (c.flagDefault s)) flags) =
      some (c.flagDefault s) := latest_writesOf distinct listed
  show settings.get (settings.assign c _) s = _
  rw [get_assign, all, last]
  rfl

theorem get_parse (c : Config) (passed : Writes) (s : Setting) :
    (parse c passed).get s = (latest s passed).getD (c.get s) :=
  get_assign settings c passed s

theorem flagDefault_eq (c : Config) {s : Setting} (url : s ≠ .webhookURL) : c.flagDefault s = c.get s := by
  cases s <;> first | exact absurd rfl url | rfl

theorem webhookURLFromFlag_eq (passed : Writes) :
    webhookURLFromFlag passed = (latest Setting.webhookURL passed).isSome := by
  have named : ∀ s : Setting, s.flagName = lit "webhook-url" ↔ s = .webhookURL := by
    intro s
    cases s <;> decide +kernel
  rw [Bool.eq_iff_iff, latest_isSome]
  simp [webhookURLFromFlag, named]

theorem get_loadConfig (env : Env) (passed : Writes) {s : Setting} (url : s ≠ .webhookURL) :
    (loadConfig env passed).1.get s =
      (latest s passed).getD ((loadFromEnv env newConfig).1.get s) := by
  have resolved : ∀ c : Config, (resolveSecrets c passed).get s = c.get s := by
    intro c
    unfold resolveSecrets
    split <;> cases s <;> first | exact absurd rfl url | rfl
  unfold loadConfig
  rw [resolved, get_parse, get_bindFlags, flagDefault_eq _ url]

theorem webhookURL_loadConfig (env : Env) (passed : Writes) :
    (loadConfig env passed).1.webhookURL =
      (latest Setting.webhookURL passed).getD (loadFromEnv env newConfig).1.webhookURLFromEnv := by
  have given : (parse (bindFlags (loadFromEnv env newConfig).1) passed).webhookURL =
      (latest Setting.webhookURL passed).getD ([] : GoString) := by
    have parsed := get_parse (bindFlags (loadFromEnv env newConfig).1) passed .webhookURL
    rw [get_bindFlags] at parsed
    exact parsed
  have kept : (parse (bindFlags (loadFromEnv env newConfig).1) passed).webhookURLFromEnv =
      (loadFromEnv env newConfig).1.webhookURLFromEnv := by
    unfold parse bindFlags
    rw [assign_webhookURLFromEnv, assign_webhookURLFromEnv]
  unfold loadConfig resolveSecrets
  rw [webhookURLFromFlag_eq]
  cases found : latest Setting.webhookURL passed with
  | none => exact kept
  | some url =>
      rw [found] at given
      exact given

/-- The variable is trimmed and put aside. -/
theorem webhookURLFromEnv_loadFromEnv (env : Env) :
    (loadFromEnv env newConfig).1.webhookURLFromEnv =
      (Setting.webhookURL.fromEnv env).getD ([] : GoString) := by
  have name : Setting.webhookURL.envName = lit "KUBE_AUTOPSY_WEBHOOK_URL" := by decide +kernel
  have header : ∀ c : Config, (c.loadWebhookAuthHeader env).webhookURLFromEnv = c.webhookURLFromEnv := by
    intro c
    unfold Config.loadWebhookAuthHeader
    split <;> rfl
  unfold loadFromEnv Setting.fromEnv
  rw [header, envVars_config, name]
  unfold Config.loadWebhookURL
  by_cases unset : env (lit "KUBE_AUTOPSY_WEBHOOK_URL") = []
  · rw [if_pos unset, if_pos unset]
    exact assign_webhookURLFromEnv newConfig _
  · rw [if_neg unset, if_neg unset]
    rfl

/-- **Flag over environment over default**, for every flag but one. -/
theorem loadConfig_precedence (env : Env) (passed : Writes) {s : Setting} (reports : s ≠ .maxReports) :
    (loadConfig env passed).1.get s = documented env passed s := by
  unfold documented
  by_cases url : s = .webhookURL
  · subst url
    show (loadConfig env passed).1.webhookURL = _
    rw [webhookURL_loadConfig, webhookURLFromEnv_loadFromEnv]
    rfl
  · rw [get_loadConfig env passed url, get_loadFromEnv_read env newConfig reports url]
    congr 2
    unfold reading Setting.fromEnv
    split
    · rfl
    · cases s <;> first | exact absurd rfl url | rfl

/-- The flag whose variable is not read. -/
theorem loadConfig_maxReports (env : Env) (passed : Writes) :
    (loadConfig env passed).1.get .maxReports = (latest Setting.maxReports passed).getD (10000 : Int) := by
  rw [get_loadConfig env passed (by decide), get_loadFromEnv_unread env newConfig (.inl rfl)]
  rfl

theorem maxReports_envName : Setting.maxReports.envName = lit "KUBE_AUTOPSY_MAX_REPORTS" := by
  decide +kernel

theorem rejected_maxReports (env : Env) :
    Setting.Rejected env .maxReports ↔ env (lit "KUBE_AUTOPSY_MAX_REPORTS") ≠ [] ∧
      atoi (env (lit "KUBE_AUTOPSY_MAX_REPORTS")) = none := by
  unfold Setting.Rejected
  rw [maxReports_envName]
  constructor
  · rintro ⟨-, set, rejected⟩
    exact ⟨set, rejected⟩
  · rintro ⟨set, rejected⟩
    exact ⟨by decide, set, rejected⟩

theorem documented_maxReports (env : Env) (passed : Writes) :
    documented env passed .maxReports = (latest Setting.maxReports passed).getD
      (if env (lit "KUBE_AUTOPSY_MAX_REPORTS") = [] then (10000 : Int)
        else (atoi (env (lit "KUBE_AUTOPSY_MAX_REPORTS"))).getD 10000) := by
  unfold documented Setting.fromEnv
  rw [maxReports_envName]
  by_cases unset : env (lit "KUBE_AUTOPSY_MAX_REPORTS") = []
  · rw [if_pos unset, if_pos unset]
    rfl
  · rw [if_neg unset, if_neg unset]
    rfl

/-- A variable that is rejected leaves its field alone. -/
theorem loadFromEnv_unchanged {env : Env} {c : Config} {s : Setting} (rejected : Setting.Rejected env s) :
    (loadFromEnv env c).1.get s = c.get s := by
  obtain ⟨kind, set, none_⟩ := rejected
  by_cases reports : s = .maxReports
  · exact get_loadFromEnv_unread env c (.inl reports)
  by_cases url : s = .webhookURL
  · exact get_loadFromEnv_unread env c (.inr url)
  have nothing : reading env (s.envName, s) = none := by
    unfold reading
    rw [if_neg set]
    exact none_
  rw [get_loadFromEnv_read env c reports url, nothing]
  rfl

/-- **When the documentation is right**: the variable of `--max-reports` is not set, or
another variable is rejected, or it has a value and the flag is passed or its value is the
default. -/
theorem loadConfig_documented_iff (env : Env) (passed : Writes) :
    Documented env passed ↔
      env (lit "KUBE_AUTOPSY_MAX_REPORTS") = [] ∨
      (∃ s ≠ Setting.maxReports, Setting.Rejected env s) ∨
      ∃ i, atoi (env (lit "KUBE_AUTOPSY_MAX_REPORTS")) = some i ∧
        ((latest Setting.maxReports passed).isSome = true ∨ i = 10000) := by
  have accepted := loadFromEnv_errors env newConfig
  have rejected := rejected_maxReports env
  have field := loadConfig_maxReports env passed
  have wanted := documented_maxReports env passed
  constructor
  · intro holds
    by_contra unmet
    rw [not_or, not_or] at unmet
    obtain ⟨set, others, value⟩ := unmet
    have quiet : (loadFromEnv env newConfig).2 = [] := by
      rw [accepted]
      intro s other bad
      exact others ⟨s, other, bad⟩
    cases parsed : atoi (env (lit "KUBE_AUTOPSY_MAX_REPORTS")) with
    | none => exact holds.rejects.2 ⟨.maxReports, rejected.2 ⟨set, parsed⟩⟩ quiet
    | some i =>
        refine value ⟨i, parsed, ?_⟩
        have same := holds.precedence quiet .maxReports
        rw [field, wanted, if_neg set, parsed] at same
        cases found : latest Setting.maxReports passed with
        | none =>
            rw [found] at same
            exact .inr same.symm
        | some v => exact .inl rfl
  · intro met
    have errors : (loadFromEnv env newConfig).2 ≠ [] ↔ ∃ s ≠ Setting.maxReports, Setting.Rejected env s := by
      rw [ne_eq, accepted]
      push Not
      rfl
    refine ⟨?_, ?_, fun s => loadFromEnv_unchanged⟩
    · intro quiet s
      by_cases reports : s = .maxReports
      · subst reports
        rw [field, wanted]
        rcases met with unset | other | ⟨i, parsed, passed_ | same⟩
        · rw [if_pos unset]
        · exact absurd quiet (errors.2 other)
        · obtain ⟨v, found⟩ := Option.isSome_iff_exists.1 passed_
          rw [found]
          rfl
        · rw [parsed, same]
          split <;> rfl
      · exact loadConfig_precedence env passed reports
    · rw [errors]
      constructor
      · rintro ⟨s, -, bad⟩
        exact ⟨s, bad⟩
      · rintro ⟨s, bad⟩
        by_cases reports : s = .maxReports
        · subst reports
          obtain ⟨set, unparsed⟩ := rejected.1 bad
          rcases met with unset | other | ⟨i, parsed, -⟩
          · exact absurd unset set
          · exact other
          · rw [unparsed] at parsed
            cases parsed
        · exact ⟨s, reports, bad⟩

/-- An environment with one variable. -/
def onlyVar (key value : GoString) : Env := fun k => if k = key then value else []

/-- **Five reports are asked for, and ten thousand kept.** -/
theorem maxReports_ignored :
    (loadConfig (onlyVar (lit "KUBE_AUTOPSY_MAX_REPORTS") (lit "5")) []).2 = [] ∧
      (loadConfig (onlyVar (lit "KUBE_AUTOPSY_MAX_REPORTS") (lit "5")) []).1.maxReports = 10000 ∧
      ¬ Documented (onlyVar (lit "KUBE_AUTOPSY_MAX_REPORTS") (lit "5")) [] := by
  have quiet : (loadConfig (onlyVar (lit "KUBE_AUTOPSY_MAX_REPORTS") (lit "5")) []).2 = [] := by
    decide +kernel
  have kept : (loadConfig (onlyVar (lit "KUBE_AUTOPSY_MAX_REPORTS") (lit "5")) []).1.maxReports =
      10000 := by
    decide +kernel
  refine ⟨quiet, kept, ?_⟩
  intro holds
  have same := holds.precedence quiet .maxReports
  rw [documented_maxReports] at same
  exact absurd (kept.symm.trans same) (by decide +kernel)

end KubeAutopsy.Config
