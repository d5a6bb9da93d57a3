/-
# KubeAutopsy.Agent.LogFraming — what a runtime frames is what the parser returns

A runtime that follows the CRI log format writes a message as one or more records, each with
a timestamp, the stream, a tag that says whether the message goes on, and a fragment.  The
records of the two streams may come in any order that keeps each stream's own
(`parseLogLines_frame`).
-/
import KubeAutopsy.Agent.LogParse

namespace KubeAutopsy.Agent

open KubeAutopsy.Theory.Bytes (GoString lit cut cut_byte cut_absent)
open KubeAutopsy.Theory.Fragments

set_option autoImplicit false

/-- A record as a runtime writes it. -/
structure CRIRecord (d : Decoders) where
  timestamp : GoString
  accepted : d.timeParse timestamp = true
  timestamp_spaces : (32 : UInt8) ∉ timestamp
  stream : Origin
  framed : stream ≠ .unframed
  last : Bool
  flags : List GoString
  flags_spaces : ∀ flag ∈ flags, (32 : UInt8) ∉ flag
  fragment : GoString

/-- `F` or `P`, and the flags behind it. -/
def CRIRecord.tag {d : Decoders} (r : CRIRecord d) : GoString :=
  lit (if r.last then "F" else "P") ++ r.flags.flatMap (lit ":" ++ ·)

def CRIRecord.frame {d : Decoders} (r : CRIRecord d) : GoString :=
  r.timestamp ++ (lit " " ++ (r.stream.name ++ (lit " " ++ (r.tag ++ (lit " " ++ r.fragment)))))

def CRIRecord.piece {d : Decoders} (r : CRIRecord d) : Piece Origin UInt8 :=
  ⟨r.stream, r.last, r.fragment⟩

/-- The records of one stream, as the pieces of its messages. -/
def recordsOf {d : Decoders} (o : Origin) (records : List (CRIRecord d)) : List (Bool × GoString) :=
  (records.filter fun r => r.stream = o).map fun r => (r.last, r.fragment)

/-! ## One record -/

theorem colonByte : lit ":" = [58] := by decide +kernel
theorem spaceByte : lit " " = [32] := by decide +kernel

theorem name_spaces (o : Origin) : (32 : UInt8) ∉ o.name := by
  cases o <;> decide +kernel

theorem CRIRecord.tag_spaces {d : Decoders} (r : CRIRecord d) : (32 : UInt8) ∉ r.tag := by
  unfold CRIRecord.tag
  rw [List.mem_append, not_or]
  constructor
  · cases r.last <;> decide +kernel
  · rw [List.mem_flatMap]
    rintro ⟨flag, member, space⟩
    rcases List.mem_append.1 space with colon | inside
    · exact absurd colon (by decide +kernel)
    · exact r.flags_spaces flag member inside

/-- The flags are cut off the tag. -/
theorem CRIRecord.baseTag {d : Decoders} (r : CRIRecord d) :
    cutBefore (lit ":") r.tag = lit (if r.last then "F" else "P") := by
  have colon : (58 : UInt8) ∉ lit (if r.last then "F" else "P") := by
    cases r.last <;> decide +kernel
  unfold CRIRecord.tag
  cases r.flags with
  | nil =>
      rw [List.flatMap_nil, List.append_nil, cutBefore, colonByte, cut_absent colon]
  | cons flag flags =>
      rw [List.flatMap_cons, List.append_assoc, cutBefore, colonByte, List.singleton_append,
        cut_byte colon]

theorem CRIRecord.parse {d : Decoders} (r : CRIRecord d) :
    parseCRILogLine d r.frame = some ⟨r.fragment, r.stream.name, !r.last⟩ := by
  have first : cut (lit " ") r.frame =
      some (r.timestamp, r.stream.name ++ (lit " " ++ (r.tag ++ (lit " " ++ r.fragment)))) := by
    rw [CRIRecord.frame, spaceByte]
    exact cut_byte r.timestamp_spaces _
  have second : cut (lit " ") (r.stream.name ++ (lit " " ++ (r.tag ++ (lit " " ++ r.fragment)))) =
      some (r.stream.name, r.tag ++ (lit " " ++ r.fragment)) := by
    rw [spaceByte]
    exact cut_byte (name_spaces _) _
  have third : cut (lit " ") (r.tag ++ (lit " " ++ r.fragment)) = some (r.tag, r.fragment) := by
    rw [spaceByte]
    exact cut_byte r.tag_spaces _
  have known : ¬ (r.stream.name ≠ stdoutName ∧ r.stream.name ≠ stderrName) := by
    cases named : r.stream with
    | unframed => exact absurd named r.framed
    | stdout => exact fun other => other.1 rfl
    | stderr => exact fun other => other.2 rfl
  have tags : ¬ (lit (if r.last then "F" else "P") ≠ lit "F" ∧
      lit (if r.last then "F" else "P") ≠ lit "P") ∧
      decide (lit (if r.last then "F" else "P") = lit "P") = !r.last := by
    cases r.last <;> decide +kernel
  unfold parseCRILogLine
  rw [first]
  dsimp only
  rw [second]
  dsimp only
  rw [if_neg known]
  have tag : cutBefore (lit " ") (r.tag ++ (lit " " ++ r.fragment)) = r.tag := by
    rw [cutBefore, third]
  have message : cutAfter (lit " ") (r.tag ++ (lit " " ++ r.fragment)) = r.fragment := by
    rw [cutAfter, third]
  rw [tag, message, r.baseTag, if_neg tags.1, r.accepted, tags.2]
  rfl

/-- A timestamp starts with a digit, so a record is no docker entry. -/
theorem CRIRecord.not_docker {d : Decoders} (r : CRIRecord d) :
    parseDockerLogLine d r.frame = none := by
  obtain ⟨b, rest, starts, low, high⟩ := d.timeParse_digit _ r.accepted
  have other : b ≠ 123 := by
    rintro rfl
    exact absurd high (by decide)
  rw [CRIRecord.frame, starts]
  exact parseDockerLogLine_cons d _ other

theorem CRIRecord.classify_frame {d : Decoders} (r : CRIRecord d) :
    classify d r.frame = r.piece := by
  unfold classify
  rw [r.not_docker, r.parse]
  show (⟨if r.stream.name = stdoutName then .stdout else .stderr, !!r.last, r.fragment⟩ :
    Piece Origin UInt8) = _
  rw [origin_of_name r.framed, Bool.not_not]
  rfl

/-! ## All records of a log -/

theorem classify_frames {d : Decoders} (records : List (CRIRecord d)) :
    (records.map CRIRecord.frame).map (classify d) = records.map CRIRecord.piece := by
  rw [List.map_map]
  exact List.map_congr_left fun r _ => r.classify_frame

theorem piecesOf_frame {d : Decoders} (o : Origin) (records : List (CRIRecord d)) :
    piecesOf o ((records.map CRIRecord.frame).map (classify d)) = recordsOf o records := by
  rw [classify_frames, piecesOf, List.filter_map, List.map_map]
  rfl

/-- **What was framed comes back.**  However the messages of the two streams are cut and
their records interleaved, the parser returns the messages of each stream in order, each
where its last record stands. -/
theorem parseLogLines_frame (d : Decoders) (out err : List (Cut UInt8))
    (records : List (CRIRecord d)) (stdout : recordsOf .stdout records = out.flatMap Cut.pieces)
    (stderr : recordsOf .stderr records = err.flatMap Cut.pieces) :
    ∃ tagged : List (Origin × GoString),
      parseLogLines d (records.map CRIRecord.frame) = tagged.map Prod.snd ∧
      tagged.map Prod.fst = (records.filter CRIRecord.last).map CRIRecord.stream ∧
      textsOf .stdout tagged = out.map Cut.text ∧ textsOf .stderr tagged = err.map Cut.text := by
  refine ⟨parsed d (records.map CRIRecord.frame), parseLogLines_eq d _, ?_, ?_, ?_⟩
  · have none_open : leftOpen openOrder (((records.map CRIRecord.frame).map (classify d)).foldl
        absorb fun _ => none) = [] := by
      rw [← List.map_eq_nil_iff (f := Prod.fst), leftOpen_keys]
      simp only [isSome_absorb, openOrder, piecesOf_frame]
      simp [stdout, stderr, getLast?_pieces]
    unfold parsed assemble
    rw [none_open, List.append_nil]
    rw [completed_keys, classify_frames, List.filter_map, List.map_map]
    rfl
  · rw [textsOf_parsed, piecesOf_frame, stdout, groups_pieces]
  · rw [textsOf_parsed, piecesOf_frame, stderr, groups_pieces]

/-- Whether a text has digits where a shape has zeros and is the shape elsewhere. -/
def hasShape (shape text : GoString) : Bool :=
  decide (shape.length = text.length) &&
    (shape.zip text).all fun p => if p.1 = 48 then decide (48 ≤ p.2 ∧ p.2 ≤ 57) else p.2 = p.1

def utcShape : GoString := lit "0000-00-00T00:00:00.000000000Z"

theorem hasShape_digit (text : GoString) (same : hasShape utcShape text = true) :
    ∃ b rest, text = b :: rest ∧ 48 ≤ b ∧ b ≤ 57 := by
  have starts : utcShape = 48 :: utcShape.tail := by decide +kernel
  rw [starts] at same
  cases text with
  | nil => simp [hasShape] at same
  | cons b rest =>
      have first : 48 ≤ b ∧ b ≤ 57 := by
        simp only [hasShape, List.zip_cons_cons, List.all_cons, Bool.and_eq_true] at same
        simpa using same.2.1
      exact ⟨b, rest, rfl, first⟩

/-- Decoders for logs whose times are in UTC with nine digits and without docker entries. -/
def utcDecoders : Decoders where
  timeParse := hasShape utcShape
  timeParse_digit := hasShape_digit
  unmarshal _ := none
  unmarshal_valid := by
    intro line entry text found
    cases found

def utcRecord (stream : Origin) (framed : stream ≠ .unframed) (last : Bool) (fragment : GoString) :
    CRIRecord utcDecoders where
  timestamp := lit "2026-01-02T03:04:05.678901234Z"
  accepted := by decide +kernel
  timestamp_spaces := by decide +kernel
  stream := stream
  framed := framed
  last := last
  flags := [lit "x", []]
  flags_spaces := by decide +kernel
  fragment := fragment

/-- A message of stdout in two pieces around one of stderr. -/
def interleaved : List (CRIRecord utcDecoders) :=
  [utcRecord .stdout (by decide) false (lit "out of "), utcRecord .stderr (by decide) true (lit "err"),
    utcRecord .stdout (by decide) true (lit " memory ")]

theorem parseLogLines_frame_interleaved :
    ∃ tagged : List (Origin × GoString),
      parseLogLines utcDecoders (interleaved.map CRIRecord.frame) = tagged.map Prod.snd ∧
      tagged.map Prod.fst = [.stderr, .stdout] ∧
      textsOf .stdout tagged = [lit "out of  memory "] ∧ textsOf .stderr tagged = [lit "err"] :=
  parseLogLines_frame utcDecoders [⟨[lit "out of "], lit " memory "⟩] [⟨[], lit "err"⟩] interleaved
    (by decide +kernel) (by decide +kernel)

end KubeAutopsy.Agent
