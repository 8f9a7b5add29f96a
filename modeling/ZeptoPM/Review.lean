import ZeptoPM.Text
import ZeptoPM.World

/- What the daemon reads out of the texts of planners and reviewers. Both look
   for a fenced block first and for the outermost braces next; a slice from a
   brace to one that lies before it aborts, which is the result `none`. -/
namespace ZeptoPM

/-- Strips what surrounds the JSON of a planner's output: a fence marked as JSON,
any fence, or the text around the outermost braces. -/
def extractJson (text : String) : Option String :=
  let trimmed := Text.trim text.toList
  match Text.fenced "```json".toList trimmed with
  | some block => some (.ofList block)
  | none =>
    match Text.fenced "```".toList trimmed with
    | some block => some (.ofList block)
    | none =>
      match Text.find ['{'] trimmed, Text.rfindChar '}' trimmed with
      | some start, some stop => (Text.sliceInclusive trimmed start stop).map .ofList
      | _, _ => some (.ofList trimmed)

/-- The JSON of a reviewer's output, where it has some; the outer `none` is the
abort on a slice whose start lies behind its end. -/
def extractJsonBlock (w : World) (text : String) : Option (Option String) :=
  let trimmed := Text.trim text.toList
  match Text.fenced "```json".toList trimmed with
  | some block => some (some (.ofList block))
  | none =>
    match Text.find ['{'] trimmed, Text.rfindChar '}' trimmed with
    | some start, some stop =>
      (Text.sliceInclusive trimmed start stop).map (fun candidate =>
        if w.serde.isValue (.ofList candidate) then some (.ofList candidate) else none)
    | _, _ => some none

/-- The decision a review object states, if its wording is known. -/
def ReviewJson.toDecision (w : World) (parsed : ReviewJson) : Option ReviewDecision :=
  let decision := w.toLowercase parsed.decision
  if ["approved", "approve", "lgtm"].contains decision then some .approved
  else if ["revise", "revision", "revision_needed", "needs_revision",
      "needs_changes"].contains decision then
    some (.revise ((parsed.feedback.or parsed.reason).getD ""))
  else if ["rejected", "reject"].contains decision then
    some (.rejected ((parsed.reason.or parsed.feedback).getD ""))
  else none

def tryParseJson (w : World) (text : String) : Option (Option ReviewDecision) :=
  (extractJsonBlock w text).map (fun block =>
    (block.bind w.serde.reviewFromStr).bind (ReviewJson.toDecision w))

def keywordScan (w : World) (text : String) : ReviewDecision :=
  let upper := (w.toUppercase text).toList
  if Text.contains "REJECTED".toList upper then .rejected text
  else if ["REVISE", "NEEDS REVISION", "NEEDS CHANGES", "REVISION NEEDED"].any
      (fun word => Text.contains word.toList upper) then .revise text
  else .approved

/-- Parse a review decision: a JSON block if there is a usable one, else keywords. -/
def parseReviewDecision (w : World) (text : String) : Option ReviewDecision :=
  (tryParseJson w text).map (fun decision => decision.getD (keywordScan w text))

/-- A slice aborts only where its end lies before its start by more than one. -/
theorem Text.sliceInclusive_eq_none {s : List Char} {i j : Nat} :
    Text.sliceInclusive s i j = none ↔ j + 1 < i := by
  unfold Text.sliceInclusive
  split
  · simp
    omega
  · simp
    omega

end ZeptoPM
