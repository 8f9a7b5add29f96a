import ZeptoPM.Rendering
import ZeptoPM.Sqlite

/- From a plan to the daemon and back. The planner's answer is a plan written as JSON,
   alone between prose or in a fence. The extractor returns the JSON unharmed in both
   forms exactly for the plans without a fence in any of their strings
   (`extractJson_plan_iff`): it takes the first fence for the one that closes the block,
   and two fences in an instruction for a block of their own. -/
namespace ZeptoPM
open Text

/-! ## A plan as JSON -/

def PlannedJob.strings (j : PlannedJob) : List String :=
  [j.localId, j.role, j.profileId, j.instruction] ++ j.dependsOn

def PlannedChannel.strings (c : PlannedChannel) : List String :=
  [c.channelId] ++ c.participants ++ c.initialMessage.toList

/-- The strings of a plan: ids, roles, profiles, instructions and messages. -/
def ExecutionPlan.strings (p : ExecutionPlan) : List String :=
  p.jobs.flatMap PlannedJob.strings ++ p.channels.flatMap PlannedChannel.strings

/-- A plan written as JSON. -/
abbrev PlanRendering (p : ExecutionPlan) := Rendering p.strings

def PlannedJob.parts (j : PlannedJob) : List JsonPart :=
  [.literal "\x7b\"local_id\":".toList, .string j.localId, .literal ",\"role\":".toList,
      .string j.role, .literal ",\"profile_id\":".toList, .string j.profileId,
      .literal ",\"instruction\":".toList, .string j.instruction,
      .literal ",\"depends_on\":".toList] ++
    stringArray j.dependsOn ++ [.literal ['}']]

def PlannedChannel.parts (c : PlannedChannel) : List JsonPart :=
  [.literal "\x7b\"channel_id\":".toList, .string c.channelId,
      .literal ",\"participants\":".toList] ++
    stringArray c.participants ++
    [.literal (",\"mode\":\"" ++ c.mode.text ++ "\",\"max_rounds\":" ++
        (c.maxRounds.map toString).getD "null" ++ ",\"on_peer_failure\":\"" ++
        c.onPeerFailure.text ++ "\",\"initial_message\":").toList] ++
    (c.initialMessage.map (fun m => [.string m])).getD [.literal "null".toList] ++
    [.literal ['}']]

def ExecutionPlan.parts (p : ExecutionPlan) : List JsonPart :=
  .literal "\x7b\"jobs\":[".toList :: (commaSep (p.jobs.map PlannedJob.parts) ++
    (.literal "],\"channels\":[".toList :: (commaSep (p.channels.map PlannedChannel.parts) ++
      [.literal "]\x7d".toList])))

theorem PlannedJob.spells (j : PlannedJob) : Spells j.strings j.parts := by
  have h := (((Spells.literalPart (t := "\x7b\"local_id\":".toList) (by decide)).append
      (.stringPart j.localId)).append
    (((Spells.literalPart (t := ",\"role\":".toList) (by decide)).append
      (.stringPart j.role)).append
    (((Spells.literalPart (t := ",\"profile_id\":".toList) (by decide)).append
      (.stringPart j.profileId)).append
    (((Spells.literalPart (t := ",\"instruction\":".toList) (by decide)).append
      (.stringPart j.instruction)).append
    ((Spells.literalPart (t := ",\"depends_on\":".toList) (by decide)).append
    ((Spells.stringArray j.dependsOn).append (.literalPart (t := ['}']) (by decide))))))))
  simpa [strings, parts] using h

theorem not_mem_toString (n : Nat) : '`' ∉ (toString n).toList := by
  intro h
  rw [Nat.toString_eq_repr, Nat.toList_repr] at h
  exact absurd (Nat.isDigit_of_mem_toDigits (by decide) (by decide) h) (by decide)

theorem PlannedChannel.spells (c : PlannedChannel) : Spells c.strings c.parts := by
  have hmode : '`' ∉ c.mode.text.toList := by
    cases c.mode <;> decide
  have hpeer : '`' ∉ c.onPeerFailure.text.toList := by
    cases c.onPeerFailure <;> decide
  have hrounds : '`' ∉ ((c.maxRounds.map toString).getD "null").toList := by
    cases c.maxRounds with
    | none => decide
    | some n => exact not_mem_toString n
  have hmessage : Spells c.initialMessage.toList
      ((c.initialMessage.map (fun m => [.string m])).getD [.literal "null".toList]) := by
    cases c.initialMessage with
    | none => exact .literalPart (by decide)
    | some m => exact .stringPart m
  have h := ((Spells.literalPart (t := "\x7b\"channel_id\":".toList) (by decide)).append
      (.stringPart c.channelId)).append
    ((Spells.literalPart (t := ",\"participants\":".toList) (by decide)).append
    ((Spells.stringArray c.participants).append
    ((Spells.literalPart (t := (",\"mode\":\"" ++ c.mode.text ++ "\",\"max_rounds\":" ++
        (c.maxRounds.map toString).getD "null" ++ ",\"on_peer_failure\":\"" ++
        c.onPeerFailure.text ++ "\",\"initial_message\":").toList)
      (by simp [hmode, hpeer, hrounds])).append
    (hmessage.append (.literalPart (t := ['}']) (by decide))))))
  simpa [strings, parts] using h

theorem ExecutionPlan.spells (p : ExecutionPlan) : Spells p.strings p.parts := by
  have hjobs : Spells (p.jobs.flatMap PlannedJob.strings)
      (commaSep (p.jobs.map PlannedJob.parts)) :=
    .commaSep fun j _ => j.spells
  have hchannels : Spells (p.channels.flatMap PlannedChannel.strings)
      (commaSep (p.channels.map PlannedChannel.parts)) := .commaSep fun c _ => c.spells
  have h := (Spells.literalPart (t := "\x7b\"jobs\":[".toList) (by decide)).append
    (hjobs.append ((Spells.literalPart (t := "],\"channels\":[".toList) (by decide)).append
    (hchannels.append (.literalPart (t := "]\x7d".toList) (by decide)))))
  simpa [strings, parts] using h

/-- The plan as `serde_json` writes it. -/
def ExecutionPlan.render (p : ExecutionPlan) : PlanRendering p where
  escaping := serdeEscaping
  parts := p.parts
  spells := p.spells
  opens := by
    unfold parts
    rw [List.flatMap_cons, List.head?_append]
    rfl
  closes := by
    unfold parts
    simp only [List.flatMap_cons, List.flatMap_append, List.getLast?_append]
    rfl

/-! ## What the extractor finds -/

section
variable (before after : Prose) (lead trail : Blank) (json : Payload)

/-- An object between prose is found unless two fences in it make a block of their own. -/
theorem extractJson_alone_iff :
    extractJson (.ofList (alone before json after)) = some (.ofList json.text) ↔
      ¬ Fenced fence json.text := by
  rw [extractJson_eq, String.toList_ofList (l := alone before json after), trim_alone,
    ← fenced_alone_iff before.trimStart after.trimEnd json (List.prefix_refl fence),
    ← fenced_isSome_iff]
  have hmiss : ∀ mark block,
      fenced mark (alone before.trimStart json after.trimEnd) = some block →
      some (String.ofList block) ≠ some (.ofList json.text) := by
    intro mark block hblock heq
    rw [Option.some.injEq, String.ofList_inj] at heq
    exact ne_of_fenced_alone _ _ _ hblock heq
  have hjson : (fenced "```json".toList (alone before.trimStart json after.trimEnd)).isSome →
      (fenced fence (alone before.trimStart json after.trimEnd)).isSome := by
    rw [fenced_isSome_iff, fenced_isSome_iff]
    exact Fenced.of_json
  cases h : fenced "```json".toList (alone before.trimStart json after.trimEnd) with
  | some block =>
    rw [h] at hjson
    simp only [hjson rfl, not_true_eq_false, iff_false]
    exact hmiss _ _ h
  | none =>
    cases h' : fenced fence (alone before.trimStart json after.trimEnd) with
    | some block =>
      simp only [Option.isSome_some, not_true_eq_false, iff_false]
      exact hmiss _ _ h'
    | none =>
      rw [outermost_alone]
      simp

/-- An object in a fence is found unless it has a fence in it. -/
theorem extractJson_inFence_iff :
    extractJson (.ofList (inFence before lead json trail after)) = some (.ofList json.text) ↔
      ¬ fence <:+: json.text := by
  obtain ⟨block, hblock, _, hiff⟩ := fenced_inFence before.trimStart after.trimEnd lead trail json
  rw [extractJson_eq, String.toList_ofList (l := inFence before lead json trail after),
    trim_inFence, hblock, ← hiff]
  simp [String.ofList_inj]

end

/-- Whatever the prose around it and the blanks in the fence, the extractor returns a plan's
JSON both alone and from its fence exactly if no string of the plan has a fence in it. -/
theorem extractJson_plan_iff (p : ExecutionPlan) (r : PlanRendering p) (before after : Prose)
    (lead trail : Blank) :
    (extractJson (.ofList (alone before r.payload after)) = some (.ofList r.payload.text) ∧
        extractJson (.ofList (inFence before lead r.payload trail after)) =
          some (.ofList r.payload.text)) ↔
      ∀ s ∈ p.strings, ¬ fence <:+: s.toList := by
  rw [extractJson_alone_iff, extractJson_inFence_iff, r.fence_infix_iff]
  have hfenced : Fenced fence r.payload.text → ∃ s ∈ p.strings, fence <:+: s.toList := by
    intro h
    obtain ⟨a, m, b, hs⟩ := h
    exact r.fence_infix_iff.mp ⟨a ++ fence ++ m, b, hs.symm⟩
  refine ⟨?_, ?_⟩
  · intro h s hs hfence
    exact h.2 ⟨s, hs, hfence⟩
  · intro h
    have hno : ¬ ∃ s ∈ p.strings, fence <:+: s.toList := by
      intro hex
      obtain ⟨s, hs, hfence⟩ := hex
      exact h s hs hfence
    exact ⟨fun hf => hno (hfenced hf), hno⟩

/-- A plan that shows the coder what to write. -/
def fencedPlan : ExecutionPlan :=
  { jobs := [⟨"code", "coder", "coder", "Write ```fn main() \x7b\x7d``` in Rust", []⟩]
    channels := [] }

/-- Of a plan with a code block in an instruction the extractor returns something else, both
alone and from a fence. -/
theorem not_extractJson_fencedPlan :
    let nothing : Prose := ⟨[], by simp⟩
    let newline : Blank := ⟨['\n'], by simp [isWhitespace]⟩
    let json := fencedPlan.render.payload
    extractJson (.ofList (alone nothing json nothing)) ≠ some (.ofList json.text) ∧
      extractJson (.ofList (inFence nothing newline json newline nothing)) ≠
        some (.ofList json.text) := by
  intro nothing newline json
  have hinstruction : "Write ```fn main() \x7b\x7d``` in Rust" ∈ fencedPlan.strings := by
    simp [fencedPlan, ExecutionPlan.strings, PlannedJob.strings]
  have hinfix : fence <:+: json.text :=
    fencedPlan.render.fence_infix_iff.mpr
      ⟨_, hinstruction, "Write ".toList, "fn main() \x7b\x7d``` in Rust".toList, rfl⟩
  have hfenced : Fenced fence json.text := by decide +kernel
  refine ⟨?_, ?_⟩
  · exact fun h => (extractJson_alone_iff nothing nothing json).mp h hfenced
  · exact fun h => (extractJson_inFence_iff nothing nothing newline newline json).mp h hinfix

end ZeptoPM
