import Mathlib.Data.List.Infix
import ZeptoPM.Rendering

/- A reviewer's decision as JSON. The object is read back as the decision it states
   unless a fence in its strings misleads the extraction. The fragment that is then
   found is no review object, and the whole text is scanned for keywords instead: of a
   text without any of them the scan makes an approval (`verdict_iff`). -/
namespace ZeptoPM
open Text

/-! ## A review as JSON -/

def ReviewJson.strings (o : ReviewJson) : List String :=
  [o.decision] ++ o.feedback.toList ++ o.reason.toList

/-- A review object written as JSON. -/
abbrev ReviewRendering (o : ReviewJson) := Rendering o.strings

/-- What is relied on of `serde_json` for an object that it has written: it reads the
object back, and refuses what is cut out of it. -/
structure Serde.Reads (serde : Serde) (json : Payload) (o : ReviewJson) : Prop where
  isValue : serde.isValue (.ofList json.text) = true
  parses : serde.reviewFromStr (.ofList json.text) = some o
  truncated : ∀ part, part <:+: json.text → part ≠ json.text →
    serde.reviewFromStr (.ofList part) = none

/-- None of the words that the keyword scan looks for. -/
def NoKeyword (w : World) (text : String) : Prop :=
  ∀ word ∈ ["REJECTED", "REVISE", "NEEDS REVISION", "NEEDS CHANGES", "REVISION NEEDED"],
    ¬ word.toList <:+: (w.toUppercase text).toList

section
variable {w : World} {o : ReviewJson} {decision : ReviewDecision} {text : String}

theorem Text.contains_eq_false_iff {pat s : List Char} :
    contains pat s = false ↔ ¬ pat <:+: s := by
  unfold contains
  rw [find_eq_cut, Option.isSome_map, ← cut_isSome_iff, Bool.not_eq_true]

theorem keywordScan_eq_approved_iff : keywordScan w text = .approved ↔ NoKeyword w text := by
  unfold keywordScan NoKeyword
  simp only [List.forall_mem_cons, List.not_mem_nil, false_imp_iff, implies_true, and_true,
    ← contains_eq_false_iff]
  cases hrejected : contains "REJECTED".toList (w.toUppercase text).toList with
  | true => simp
  | false =>
    simp only [Bool.false_eq_true, if_false, true_and]
    split
    · rename_i hrevise
      simp only [reduceCtorEq, false_iff, ← Bool.not_eq_true]
      intro hno
      simp only [List.any_cons, List.any_nil, Bool.or_false, Bool.or_eq_true] at hrevise
      obtain ⟨h1, h2, h3, h4⟩ := hno
      rcases hrevise with h | h | h | h
      · exact h1 h
      · exact h2 h
      · exact h3 h
      · exact h4 h
    · rename_i hrevise
      simpa using hrevise

/-- A string is shorter than the object it stands in. -/
theorem Rendering.length_lt {strings : List String} (r : Rendering strings) {s : String}
    (hs : s ∈ strings) : s.toList.length < r.payload.text.length := by
  have hspell : ∀ l : List Char, l.length ≤ (l.flatMap r.escaping.escape).length := by
    intro l
    induction l with
    | nil => exact Nat.le_refl _
    | cons c l ih =>
      have hc : 1 ≤ (r.escaping.escape c).length := by
        rcases r.escaping.spelled c with h | ⟨code, h, _⟩
        · rw [h]
          exact Nat.le_refl _
        · rw [h]
          simp
      rw [List.flatMap_cons, List.length_append, List.length_cons]
      omega
  obtain ⟨a, b, hsplit⟩ := List.append_of_mem ((r.spells.string s).mpr hs)
  show _ < (r.parts.flatMap (JsonPart.text r.escaping)).length
  rw [hsplit, List.flatMap_append, List.flatMap_cons, JsonPart.text]
  simp only [List.length_append, List.length_cons]
  have := hspell s.toList
  omega

/-- The wording that goes with a decision is a string of the object, or empty. -/
theorem ReviewJson.toDecision_mem (hdecision : o.toDecision w = some decision) :
    decision = .approved ∨ ∃ s, (decision = .revise s ∨ decision = .rejected s) ∧
      (s = "" ∨ s ∈ o.strings) := by
  have hfield : ∀ x y : Option String,
      (x = o.feedback ∧ y = o.reason ∨ x = o.reason ∧ y = o.feedback) →
      (x.or y).getD "" = "" ∨ (x.or y).getD "" ∈ o.strings := by
    intro x y h
    unfold strings
    rcases h with ⟨hx, hy⟩ | ⟨hx, hy⟩
    all_goals
      subst hx
      subst hy
      cases hf : o.feedback <;> cases hr : o.reason <;> simp
  unfold toDecision at hdecision
  dsimp only at hdecision
  split at hdecision
  · cases hdecision
    exact Or.inl rfl
  · split at hdecision
    · cases hdecision
      exact Or.inr ⟨_, Or.inl rfl, hfield _ _ (Or.inl ⟨rfl, rfl⟩)⟩
    · split at hdecision
      · cases hdecision
        exact Or.inr ⟨_, Or.inr rfl, hfield _ _ (Or.inr ⟨rfl, rfl⟩)⟩
      · cases hdecision

/-- The scan of a text that holds the object makes the object's decision only if that is an
approval and the text has no keyword. -/
theorem keywordScan_eq_iff (r : ReviewRendering o) (hdecision : o.toDecision w = some decision)
    (htext : r.payload.text.length ≤ text.toList.length) :
    keywordScan w text = decision ↔ decision = .approved ∧ NoKeyword w text := by
  rw [← keywordScan_eq_approved_iff]
  refine ⟨?_, ?_⟩
  · intro hscan
    rcases ReviewJson.toDecision_mem hdecision with happroved | ⟨s, hs, hmem⟩
    · exact ⟨happroved, happroved ▸ hscan⟩
    · -- the wording would be the whole text
      exfalso
      have hwhole : s = text := by
        unfold keywordScan at hscan
        dsimp only at hscan
        rcases hs with hs | hs
        all_goals
          rw [hs] at hscan
          split at hscan
          · cases hscan <;> rfl
          · split at hscan <;> cases hscan <;> rfl
      rcases hmem with hempty | hmem
      · rw [← hwhole, hempty] at htext
        have hopens := r.payload.opens
        rw [List.length_eq_zero_iff.mp (Nat.le_zero.mp htext)] at hopens
        cases hopens
      · have hlt := r.length_lt hmem
        rw [hwhole] at hlt
        omega
  · intro h
    rw [h.2, h.1]

/-! ## What is read -/

variable {json : Payload} (hreads : w.serde.Reads json o)
  (hdecision : o.toDecision w = some decision) (before after : Prose) (lead trail : Blank)

include hreads hdecision

/-- An object between prose is read, unless two fences in it make a block of their own. -/
theorem parseReviewDecision_alone :
    parseReviewDecision w (.ofList (alone before json after)) =
      some (if Fenced "```json".toList json.text then
        keywordScan w (.ofList (alone before json after)) else decision) := by
  have hmark : fence <+: "```json".toList := ⟨_, rfl⟩
  have hiff := fenced_alone_iff before.trimStart after.trimEnd json hmark
  unfold parseReviewDecision tryParseJson
  rw [extractJsonBlock_eq, String.toList_ofList (l := alone before json after), trim_alone]
  cases h : fenced "```json".toList (alone before.trimStart json after.trimEnd) with
  | some block =>
    have hfenced := hiff.mp (fenced_isSome_iff.mp (by rw [h]; rfl))
    have hnone := hreads.truncated block (infix_of_fenced_alone _ _ _ hmark h)
      (ne_of_fenced_alone _ _ _ h)
    rw [if_pos hfenced]
    simp [hnone]
  | none =>
    have hfree : ¬ Fenced "```json".toList json.text := by
      rw [← hiff, ← fenced_isSome_iff, h]
      exact Bool.false_ne_true
    rw [if_neg hfree]
    simp [outermost_alone, hreads.isValue, hreads.parses, hdecision]

/-- An object in a fence is read, unless it has a fence in it. -/
theorem parseReviewDecision_inFence :
    parseReviewDecision w (.ofList (inFence before lead json trail after)) =
      some (if fence <:+: json.text then
        keywordScan w (.ofList (inFence before lead json trail after)) else decision) := by
  obtain ⟨block, hblock, hinfix, hiff⟩ :=
    fenced_inFence before.trimStart after.trimEnd lead trail json
  unfold parseReviewDecision tryParseJson
  rw [extractJsonBlock_eq, String.toList_ofList (l := inFence before lead json trail after),
    trim_inFence, hblock]
  by_cases hfence : fence <:+: json.text
  · have hne : block ≠ json.text := fun heq => hiff.mp heq hfence
    rw [if_pos hfence]
    simp [hreads.truncated block hinfix hne]
  · rw [if_neg hfence, hiff.mpr hfence]
    simp [hreads.parses, hdecision]

omit hreads hdecision

/-- A recognised decision in a JSON object is returned as it is meant exactly if no fence in
the object misleads the extraction, or if it is an approval and the text has none of the
words that the keyword scan looks for. -/
theorem verdict_iff (r : ReviewRendering o) (hreads : w.serde.Reads r.payload o)
    (hdecision : o.toDecision w = some decision) (before after : Prose) (lead trail : Blank) :
    (parseReviewDecision w (.ofList (alone before r.payload after)) = some decision ↔
        (Fenced "```json".toList r.payload.text →
          decision = .approved ∧ NoKeyword w (.ofList (alone before r.payload after)))) ∧
      (parseReviewDecision w (.ofList (inFence before lead r.payload trail after)) = some decision ↔
        (fence <:+: r.payload.text →
          decision = .approved ∧
            NoKeyword w (.ofList (inFence before lead r.payload trail after)))) := by
  have halone : keywordScan w (.ofList (alone before r.payload after)) = decision ↔ _ :=
    keywordScan_eq_iff r hdecision (by simp [alone]; omega)
  have hfence :
      keywordScan w (.ofList (inFence before lead r.payload trail after)) = decision ↔ _ :=
    keywordScan_eq_iff r hdecision (by simp [inFence]; omega)
  rw [parseReviewDecision_alone hreads hdecision, parseReviewDecision_inFence hreads hdecision,
    Option.some.injEq, Option.some.injEq]
  refine ⟨?_, ?_⟩
  · by_cases h : Fenced "```json".toList r.payload.text
    · rw [if_pos h, halone]
      exact ⟨fun hread _ => hread, fun hread => hread h⟩
    · rw [if_neg h]
      exact iff_of_true rfl (fun hno => absurd hno h)
  · by_cases h : fence <:+: r.payload.text
    · rw [if_pos h, hfence]
      exact ⟨fun hread _ => hread, fun hread => hread h⟩
    · rw [if_neg h]
      exact iff_of_true rfl (fun hno => absurd hno h)

end

/-! ## A rejection that approves -/

def ReviewJson.parts (o : ReviewJson) : List JsonPart :=
  [.literal "\x7b\"decision\":".toList, .string o.decision] ++
    (o.feedback.map (fun f => [.literal ",\"feedback\":".toList, .string f])).getD [] ++
    (o.reason.map (fun r => [.literal ",\"reason\":".toList, .string r])).getD [] ++
    [.literal ['}']]

theorem ReviewJson.spells (o : ReviewJson) : Spells o.strings o.parts := by
  have hfield : ∀ (key : List Char) (value : Option String), '`' ∉ key →
      Spells value.toList ((value.map (fun v => [.literal key, .string v])).getD []) := by
    intro key value hkey
    cases value with
    | none => exact ⟨by simp, by simp⟩
    | some v => exact (Spells.literalPart hkey).append (.stringPart v)
  have h := (((Spells.literalPart (t := "\x7b\"decision\":".toList) (by decide)).append
      (.stringPart o.decision)).append
    ((hfield ",\"feedback\":".toList o.feedback (by decide)).append
    ((hfield ",\"reason\":".toList o.reason (by decide)).append
      (.literalPart (t := ['}']) (by decide)))))
  simpa [strings, parts] using h

/-- The object as `serde_json` writes it. -/
def ReviewJson.render (o : ReviewJson) : ReviewRendering o where
  escaping := serdeEscaping
  parts := o.parts
  spells := o.spells
  opens := by
    unfold parts
    rw [List.flatMap_append, List.flatMap_append, List.flatMap_append, List.head?_append,
      List.head?_append, List.head?_append]
    rfl
  closes := by
    unfold parts
    rw [List.flatMap_append, List.getLast?_append]
    rfl

/-- A world that reads the given object and maps the case of ASCII letters. -/
def reviewWorld (o : ReviewJson) : World :=
  { World.bare with
    serde :=
      { World.bare.serde with
        reviewFromStr := fun s => if s = .ofList o.render.payload.text then some o else none
        isValue := fun s => s = .ofList o.render.payload.text }
    toLowercase := fun s => .ofList (s.toList.map Char.toLower)
    toUppercase := fun s => .ofList (s.toList.map Char.toUpper) }

theorem reviewWorld_reads (o : ReviewJson) : (reviewWorld o).serde.Reads o.render.payload o where
  isValue := by simp [reviewWorld]
  parses := by simp [reviewWorld]
  truncated := by
    intro part _ hne
    simp [reviewWorld, String.ofList_inj, hne]

/-- A reviewer rejects and quotes the code. -/
def quotedRejection : ReviewJson := ⟨"reject", none, some "broken: ```x```"⟩

/-- Read from a fence, the rejection is an approval. -/
theorem not_verdict_quotedRejection :
    let w := reviewWorld quotedRejection
    let nothing : Prose := ⟨[], by simp⟩
    let newline : Blank := ⟨['\n'], by simp [isWhitespace]⟩
    quotedRejection.toDecision w = some (.rejected "broken: ```x```") ∧
      parseReviewDecision w
          (.ofList (inFence nothing newline quotedRejection.render.payload newline nothing)) =
        some .approved := by
  intro w nothing newline
  have hdecision : quotedRejection.toDecision w = some (.rejected "broken: ```x```") := by
    decide +kernel
  refine ⟨hdecision, ?_⟩
  have hfence : fence <:+: quotedRejection.render.payload.text :=
    quotedRejection.render.fence_infix_iff.mpr
      ⟨"broken: ```x```", by simp [ReviewJson.strings, quotedRejection],
        "broken: ".toList, "x```".toList, rfl⟩
  rw [parseReviewDecision_inFence (reviewWorld_reads _) hdecision, if_pos hfence]
  decide +kernel

/-- Without the quote the rejection is read as it is meant, alone and from a fence. -/
theorem verdict_iff_plain :
    let o : ReviewJson := ⟨"Reject", none, some "broken"⟩
    let w := reviewWorld o
    let nothing : Prose := ⟨[], by simp⟩
    let newline : Blank := ⟨['\n'], by simp [isWhitespace]⟩
    parseReviewDecision w (.ofList (alone nothing o.render.payload nothing)) =
        some (.rejected "broken") ∧
      parseReviewDecision w
          (.ofList (inFence nothing newline o.render.payload newline nothing)) =
        some (.rejected "broken") := by
  intro o w nothing newline
  have hdecision : o.toDecision w = some (.rejected "broken") := by decide +kernel
  have h := verdict_iff o.render (reviewWorld_reads o) hdecision nothing nothing newline newline
  have hplain : ¬ fence <:+: o.render.payload.text := by
    rw [o.render.fence_infix_iff]
    intro hex
    obtain ⟨s, hs, hin⟩ := hex
    have hs' : s = "Reject" ∨ s = "broken" := by simpa [ReviewJson.strings, o] using hs
    rcases hs' with hs' | hs' <;> subst hs' <;> exact no_fence_within (by decide) hin
  refine ⟨h.1.mpr fun hfenced => ?_, h.2.mpr fun hin => absurd hin hplain⟩
  obtain ⟨a, m, b, hs⟩ := hfenced.of_json
  exact absurd ⟨a ++ fence ++ m, b, hs.symm⟩ hplain

end ZeptoPM
