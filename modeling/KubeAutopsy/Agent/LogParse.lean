/-
# KubeAutopsy.Agent.LogParse — from raw log lines to what the container wrote

`parseLogLines` of `internal/agent/logcapture.go` and the two line formats it knows.  The
decoders of the standard library it calls are a parameter: `time.Parse` decides whether a
timestamp is one, and `json.Unmarshal` reads a docker entry.

A raw line is a piece of a message (`classify`), and the parser puts the pieces together as
`Theory.Fragments` says, with stderr before stdout in what is left open
(`parseLogLines_eq`).
-/
import KubeAutopsy.Agent.Names
import KubeAutopsy.Theory.Fragments

namespace KubeAutopsy.Agent

open KubeAutopsy.Theory.Bytes (GoString lit cut)
open KubeAutopsy.Theory.Fragments
open KubeAutopsy.Theory.Utf8 (Valid)

set_option autoImplicit false

/-! ## The line formats -/

/-- A docker json-file entry; `log` is absent when the key is. -/
structure DockerLogEntry where
  log : Option GoString
  stream : GoString
  deriving DecidableEq, Repr

/-- The decoders of the standard library. -/
structure Decoders where
  /-- Whether `time.Parse` accepts a text as a time in the layout RFC3339Nano. -/
  timeParse : GoString → Bool
  /-- That layout starts with the digits of the year. -/
  timeParse_digit : ∀ text, timeParse text = true → ∃ b rest, text = b :: rest ∧ 48 ≤ b ∧ b ≤ 57
  /-- `json.Unmarshal` into an entry. -/
  unmarshal : GoString → Option DockerLogEntry
  /-- It replaces what is not valid UTF-8. -/
  unmarshal_valid : ∀ line entry text, unmarshal line = some entry → entry.log = some text → Valid text

def stdoutName : GoString := lit "stdout"
def stderrName : GoString := lit "stderr"

def parseDockerLogLine (d : Decoders) (line : GoString) : Option GoString :=
  if ¬ lit "\x7b" <+: line then none
  else
    match d.unmarshal line with
    | none => none
    | some entry =>
        if entry.stream ≠ stdoutName ∧ entry.stream ≠ stderrName then none
        else
          match entry.log with
          | none => none
          | some log => some (trimSuffix log (lit "\n"))

/-- What `parseCRILogLine` returns when it recognises the line. -/
structure CRILogLine where
  message : GoString
  stream : GoString
  isPartial : Bool
  deriving DecidableEq, Repr

/-- The part of a text before a separator, or all of it. -/
def cutBefore (sep s : GoString) : GoString :=
  match cut sep s with
  | some (before, _) => before
  | none => s

/-- The part of a text behind a separator, or nothing. -/
def cutAfter (sep s : GoString) : GoString :=
  match cut sep s with
  | some (_, after) => after
  | none => []

def parseCRILogLine (d : Decoders) (line : GoString) : Option CRILogLine :=
  match cut (lit " ") line with
  | none => none
  | some (timestamp, rest) =>
      match cut (lit " ") rest with
      | none => none
      | some (stream, rest) =>
          -- A line with an empty message may end with the tag.
          let tag := cutBefore (lit " ") rest
          let message := cutAfter (lit " ") rest
          if stream ≠ stdoutName ∧ stream ≠ stderrName then none
          else
            let baseTag := cutBefore (lit ":") tag
            if baseTag ≠ lit "F" ∧ baseTag ≠ lit "P" then none
            else if !d.timeParse timestamp then none
            else some ⟨message, stream, decide (baseTag = lit "P")⟩

/-! ## The parser -/

/-- The variables of `parseLogLines`: what is out, and the open partial of each stream. -/
structure ParseState where
  out : List GoString := []
  partials : AList fun _ : GoString => GoString := ∅

/-- The key of lines without framing. -/
def unframed : GoString := []

def ParseState.flush (st : ParseState) (stream message : GoString) : ParseState :=
  match st.partials.lookup stream with
  | some b => { out := st.out ++ [b ++ message], partials := st.partials.erase stream }
  | none => { st with out := st.out ++ [message] }

def parseLine (d : Decoders) (st : ParseState) (line : GoString) : ParseState :=
  match parseDockerLogLine d line with
  | some entry => st.flush unframed entry
  | none =>
      match parseCRILogLine d line with
      | none => st.flush unframed line
      | some cri =>
          if cri.isPartial then
            let b := (st.partials.lookup cri.stream).getD []
            { st with partials := st.partials.insert cri.stream (b ++ cri.message) }
          else st.flush cri.stream cri.message

/-- `sort.Strings`. -/
def sortStrings (strings : List GoString) : List GoString :=
  strings.insertionSort (· ≤ ·)

def parseLogLines (d : Decoders) (raw : List GoString) : List GoString :=
  let st := raw.foldl (parseLine d) {}
  let openStreams := sortStrings st.partials.keys
  st.out ++ openStreams.filterMap fun stream => st.partials.lookup stream

/-! ## Raw lines as pieces -/

/-- Where a message comes from. -/
inductive Origin where
  | unframed | stdout | stderr
  deriving DecidableEq, Repr

/-- The key of its partial. -/
def Origin.name : Origin → GoString
  | .unframed => Agent.unframed
  | .stdout => stdoutName
  | .stderr => stderrName

/-- The piece of a message a raw line is. -/
def classify (d : Decoders) (line : GoString) : Piece Origin UInt8 :=
  match parseDockerLogLine d line with
  | some entry => ⟨.unframed, true, entry⟩
  | none =>
      match parseCRILogLine d line with
      | none => ⟨.unframed, true, line⟩
      | some cri =>
          ⟨if cri.stream = stdoutName then .stdout else .stderr, !cri.isPartial, cri.message⟩

/-- The order in which open partials are emitted. -/
def openOrder : List Origin := [.stderr, .stdout]

theorem Origin.name_injective : Function.Injective Origin.name := by
  intro a b
  cases a <;> cases b <;> decide

/-- What a line that is recognised consists of. -/
theorem parseCRILogLine_eq_some {d : Decoders} {line : GoString} {cri : CRILogLine}
    (parsed : parseCRILogLine d line = some cri) :
    ∃ timestamp rest behind, cut (lit " ") line = some (timestamp, rest) ∧
      cut (lit " ") rest = some (cri.stream, behind) ∧ cri.message = cutAfter (lit " ") behind ∧
      d.timeParse timestamp = true ∧ (cri.stream = stdoutName ∨ cri.stream = stderrName) := by
  unfold parseCRILogLine at parsed
  split at parsed
  · cases parsed
  rename_i timestamp rest first
  split at parsed
  · cases parsed
  rename_i stream behind second
  dsimp only at parsed
  split at parsed
  · cases parsed
  rename_i known
  split at parsed
  · cases parsed
  split at parsed
  · cases parsed
  rename_i accepted
  obtain rfl := Option.some.inj parsed
  refine ⟨timestamp, rest, behind, first, second, rfl, by simpa using accepted, ?_⟩
  tauto

/-- A docker entry starts with a brace. -/
theorem parseDockerLogLine_cons (d : Decoders) {b : UInt8} (tail : GoString) (other : b ≠ 123) :
    parseDockerLogLine d (b :: tail) = none := by
  have brace : ¬ lit "\x7b" <+: b :: tail := by
    show ¬ [(123 : UInt8)] <+: b :: tail
    rw [List.cons_prefix_cons]
    rintro ⟨rfl, -⟩
    exact other rfl
  rw [parseDockerLogLine, if_pos brace]

theorem origin_of_name {o : Origin} (framed : o ≠ .unframed) :
    (if o.name = stdoutName then Origin.stdout else .stderr) = o := by
  cases o with
  | unframed => exact absurd rfl framed
  | stdout => decide
  | stderr => decide

/-- The parser's map holds the open messages. -/
structure Represents (st : ParseState) (opened : Origin → Option GoString) : Prop where
  lookup : ∀ o, st.partials.lookup (Origin.name o) = opened o
  streams : ∀ k ∈ st.partials, k = stdoutName ∨ k = stderrName

theorem represents_start : Represents {} fun _ => none := by
  constructor
  · intro o
    rfl
  · intro k member
    cases member

theorem flush_spec {st : ParseState} {opened : Origin → Option GoString}
    (represents : Represents st opened) (o : Origin) (message : GoString) :
    Represents (st.flush o.name message) (absorb opened ⟨o, true, message⟩) ∧
      (st.flush o.name message).out = st.out ++ [(opened o).getD [] ++ message] := by
  unfold ParseState.flush
  rw [represents.lookup]
  cases found : opened o with
  | none =>
      refine ⟨⟨?_, represents.streams⟩, rfl⟩
      intro other
      by_cases here : other = o
      · subst here
        simp [absorb, represents.lookup, found]
      · simp [absorb, Function.update_of_ne here, represents.lookup]
  | some b =>
      refine ⟨⟨?_, ?_⟩, rfl⟩
      · intro other
        by_cases here : other = o
        · subst here
          simp [absorb]
        · have apart : other.name ≠ o.name := fun same => here (Origin.name_injective same)
          simp [absorb, Function.update_of_ne here, AList.lookup_erase_ne apart, represents.lookup]
      · intro k member
        exact represents.streams k (AList.mem_erase.1 member).2

theorem partial_spec {st : ParseState} {opened : Origin → Option GoString}
    (represents : Represents st opened) {o : Origin} (framed : o ≠ .unframed) (message : GoString) :
    Represents
      { st with
        partials := st.partials.insert o.name ((st.partials.lookup o.name).getD [] ++ message) }
      (absorb opened ⟨o, false, message⟩) := by
  rw [represents.lookup]
  constructor
  · intro other
    by_cases here : other = o
    · subst here
      simp [absorb]
    · have apart : other.name ≠ o.name := fun same => here (Origin.name_injective same)
      simp [absorb, Function.update_of_ne here, AList.lookup_insert_ne apart, represents.lookup]
  · intro k member
    rcases (AList.mem_insert _).1 member with rfl | old
    · cases o with
      | unframed => exact absurd rfl framed
      | stdout => exact .inl rfl
      | stderr => exact .inr rfl
    · exact represents.streams k old

/-- **One raw line** is absorbed as the piece it is. -/
theorem parseLine_spec {d : Decoders} {st : ParseState} {opened : Origin → Option GoString}
    (represents : Represents st opened) (line : GoString) :
    Represents (parseLine d st line) (absorb opened (classify d line)) ∧
      (parseLine d st line).out = st.out ++ (completed opened [classify d line]).map Prod.snd := by
  unfold parseLine classify
  cases parseDockerLogLine d line with
  | some entry => exact flush_spec represents .unframed entry
  | none =>
      cases parsed : parseCRILogLine d line with
      | none => exact flush_spec represents .unframed line
      | some cri =>
          obtain ⟨-, -, -, -, -, -, -, known⟩ := parseCRILogLine_eq_some parsed
          obtain ⟨o, framed, name⟩ : ∃ o : Origin, o ≠ .unframed ∧ cri.stream = o.name := by
            rcases known with same | same
            · exact ⟨.stdout, by decide, same⟩
            · exact ⟨.stderr, by decide, same⟩
          dsimp only
          rw [name, origin_of_name framed]
          cases cri.isPartial with
          | true =>
              refine ⟨partial_spec represents framed cri.message, ?_⟩
              simp [completed]
          | false => exact flush_spec represents o cri.message

theorem parse_run (d : Decoders) (raw : List GoString) {st : ParseState}
    {opened : Origin → Option GoString} (represents : Represents st opened) :
    Represents (raw.foldl (parseLine d) st) ((raw.map (classify d)).foldl absorb opened) ∧
      (raw.foldl (parseLine d) st).out =
        st.out ++ (completed opened (raw.map (classify d))).map Prod.snd := by
  induction raw generalizing st opened with
  | nil => exact ⟨represents, by simp [completed]⟩
  | cons line raw ih =>
      obtain ⟨next, out⟩ := parseLine_spec (d := d) represents line
      obtain ⟨last, rest⟩ := ih next
      refine ⟨last, ?_⟩
      have split : completed opened (classify d line :: raw.map (classify d)) =
          completed opened [classify d line] ++
            completed (absorb opened (classify d line)) (raw.map (classify d)) :=
        completed_append opened [classify d line] _
      rw [List.foldl_cons, rest, out, List.map_cons, split, List.map_append, List.append_assoc]

theorem sortStrings_streams {keys : List GoString} (distinct : keys.Nodup)
    (known : ∀ k ∈ keys, k = stdoutName ∨ k = stderrName) :
    sortStrings keys = [stderrName, stdoutName].filter (· ∈ keys) := by
  match keys with
  | [] => decide
  | [a] =>
      rcases known a (by simp) with rfl | rfl <;> decide +kernel
  | [a, b] =>
      rcases known a (by simp) with rfl | rfl <;> rcases known b (by simp) with rfl | rfl
      · simp at distinct
      · decide +kernel
      · decide +kernel
      · simp at distinct
  | a :: b :: c :: rest =>
      exfalso
      have first := known a (by simp)
      have second := known b (by simp)
      have third := known c (by simp)
      simp only [List.nodup_cons, List.mem_cons, not_or] at distinct
      obtain ⟨⟨ab, ac, -⟩, ⟨bc, -⟩, -⟩ := distinct
      rcases first with rfl | rfl <;> rcases second with rfl | rfl <;> rcases third with rfl | rfl <;>
        contradiction

/-- The open partials, stderr first. -/
theorem openStreams_eq {st : ParseState} {opened : Origin → Option GoString}
    (represents : Represents st opened) :
    ((sortStrings st.partials.keys).filterMap fun stream => st.partials.lookup stream) =
      (leftOpen openOrder opened).map Prod.snd := by
  have absent : ∀ k, (if decide (k ∈ st.partials.keys) = true then st.partials.lookup k else none) =
      st.partials.lookup k := by
    intro k
    by_cases member : k ∈ st.partials.keys
    · simp [member]
    · simp [member, AList.lookup_eq_none.2 (fun found => member (AList.mem_keys.1 found))]
  rw [sortStrings_streams (AList.keys_nodup _) represents.streams, List.filterMap_filter]
  simp only [absent]
  have errs := represents.lookup .stderr
  have outs := represents.lookup .stdout
  simp only [Origin.name] at errs outs
  unfold leftOpen openOrder
  cases left : opened .stderr <;> cases right : opened .stdout <;> simp [errs, outs, left, right]

/-- What the parser returns, each message with where it comes from. -/
def parsed (d : Decoders) (raw : List GoString) : List (Origin × GoString) :=
  assemble openOrder (raw.map (classify d))

/-- **The parser puts the pieces together.** -/
theorem parseLogLines_eq (d : Decoders) (raw : List GoString) :
    parseLogLines d raw = (parsed d raw).map Prod.snd := by
  obtain ⟨represents, out⟩ := parse_run d raw represents_start
  unfold parseLogLines parsed assemble
  dsimp only
  rw [out, openStreams_eq represents, List.map_append]
  rfl

/-! ## What becomes of each stream -/

theorem classify_unframed {d : Decoders} {line : GoString}
    (alone : (classify d line).key = .unframed) : (classify d line).last = true := by
  unfold classify at alone ⊢
  cases docker : parseDockerLogLine d line with
  | some entry => rfl
  | none =>
      cases found : parseCRILogLine d line with
      | none => rfl
      | some cri =>
          rw [docker, found] at alone
          have framed : (if cri.stream = stdoutName then Origin.stdout else .stderr) ≠ .unframed := by
            split <;> decide
          exact absurd alone framed

theorem textsOf_parsed (d : Decoders) (raw : List GoString) (o : Origin) :
    textsOf o (parsed d raw) = groups none (piecesOf o (raw.map (classify d))) := by
  refine textsOf_assemble (by decide) ?_
  cases o with
  | unframed =>
      right
      intro p member alone
      obtain ⟨line, -, rfl⟩ := List.mem_map.1 member
      exact classify_unframed alone
  | stdout => exact .inl (by decide)
  | stderr => exact .inl (by decide)

/-- Lines without framing are messages of their own. -/
theorem textsOf_unframed (d : Decoders) (raw : List GoString) :
    textsOf .unframed (parsed d raw) =
      ((raw.map (classify d)).filter fun p => p.key = .unframed).map Piece.text := by
  rw [textsOf_parsed]
  have whole : piecesOf .unframed (raw.map (classify d)) =
      (((raw.map (classify d)).filter fun p => p.key = .unframed).map Piece.text).map (true, ·) := by
    unfold piecesOf
    rw [List.map_map]
    apply List.map_congr_left
    intro p member
    obtain ⟨inside, alone⟩ := List.mem_filter.1 member
    obtain ⟨line, -, rfl⟩ := List.mem_map.1 inside
    rw [classify_unframed (of_decide_eq_true alone)]
    rfl
  rw [whole, groups_whole]

/-- **Nothing is lost, duplicated or mixed.**  For each stream what is returned is its own
messages, put together up to every full one, and what is open at the end; lines without
framing are returned as they are.  Completed messages come in the order of the lines that
complete them, followed by what is open of stderr and then of stdout.  So what is returned
for a stream depends on the lines of that stream alone. -/
theorem parseLogLines_exact (d : Decoders) (raw : List GoString) :
    parseLogLines d raw = (parsed d raw).map Prod.snd ∧
    (∀ o, textsOf o (parsed d raw) = groups none (piecesOf o (raw.map (classify d)))) ∧
    textsOf .unframed (parsed d raw) =
      ((raw.map (classify d)).filter fun p => p.key = .unframed).map Piece.text ∧
    (∃ done left, parsed d raw = done ++ left ∧
      List.Forall₂ (fun out p => out.1 = p.key ∧ p.text <:+ out.2) done
        ((raw.map (classify d)).filter Piece.last) ∧
      left.map Prod.fst = [Origin.stderr, .stdout].filter fun o =>
        (piecesOf o (raw.map (classify d))).getLast?.any fun piece => !piece.1) ∧
    ∀ (o : Origin) (raw' : List GoString),
      (raw'.filter fun line => (classify d line).key = o) =
        (raw.filter fun line => (classify d line).key = o) →
      textsOf o (parsed d raw') = textsOf o (parsed d raw) := by
  refine ⟨parseLogLines_eq d raw, textsOf_parsed d raw, textsOf_unframed d raw,
    ⟨_, _, rfl, completed_order _ _, ?_⟩, ?_⟩
  · rw [leftOpen_keys]
    simp only [isSome_absorb]
    rfl
  · intro o raw' same
    have pieces : ∀ lines : List GoString, piecesOf o (lines.map (classify d)) =
        (lines.filter fun line => (classify d line).key = o).map
          fun line => ((classify d line).last, (classify d line).text) := by
      intro lines
      rw [piecesOf, List.filter_map, List.map_map]
      rfl
    rw [textsOf_parsed, textsOf_parsed, pieces, pieces, same]

/-- **A tail of the raw lines gives a tail of the messages.**  Of lines without framing it
is one; of each stream it is one but for the first message, which may have lost its
beginning.  So no message that is returned is put together from two. -/
theorem parseLogLines_drop (d : Decoders) (raw : List GoString) (k : Nat) :
    parseLogLines d (raw.drop k) = (parsed d (raw.drop k)).map Prod.snd ∧
    parseLogLines d raw = (parsed d raw).map Prod.snd ∧
    textsOf .unframed (parsed d (raw.drop k)) <:+ textsOf .unframed (parsed d raw) ∧
    (∀ o, TailOf (textsOf o (parsed d (raw.drop k))) (textsOf o (parsed d raw))) ∧
    ∀ out ∈ parsed d (raw.drop k), ∃ entry ∈ textsOf out.1 (parsed d raw), out.2 <:+ entry := by
  have tails : ∀ o, TailOf (textsOf o (parsed d (raw.drop k))) (textsOf o (parsed d raw)) := by
    intro o
    rw [textsOf_parsed, textsOf_parsed]
    have split : piecesOf o (raw.map (classify d)) =
        piecesOf o ((raw.take k).map (classify d)) ++ piecesOf o ((raw.drop k).map (classify d)) := by
      rw [← piecesOf_append, ← List.map_append, List.take_append_drop]
    rw [split]
    exact groups_drop _ _
  refine ⟨parseLogLines_eq d _, parseLogLines_eq d raw, ?_, tails, ?_⟩
  · rw [textsOf_unframed, textsOf_unframed]
    refine List.IsSuffix.map _ (List.IsSuffix.filter _ ?_)
    exact (List.drop_suffix k raw).map _
  · intro out member
    refine (tails out.1).entry ?_
    exact List.mem_map.2 ⟨out, List.mem_filter.2 ⟨member, by simp⟩, rfl⟩

end KubeAutopsy.Agent
