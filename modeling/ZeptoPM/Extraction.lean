import ZeptoPM.Review
import ZeptoPM.Utf8

/- What the two extractors do on every text. `Utf8.extractJson` and
   `Utf8.extractJsonBlock` are the source's functions with every range written out in
   bytes; `utf8_extractJson` and `utf8_extractJsonBlock` say that they agree with the
   functions over characters that the daemon is modelled with. The ranges between two
   fences are sound on every text. The range between the braces is not: where the last
   closing brace lies before the first opening one the slice aborts, unless the two
   stand side by side or a fenced block is found first (`extraction_iff`). -/
namespace ZeptoPM
open Text

/-! ## In bytes -/

/-- The text between a fence opened by `mark` and the next "```", trimmed, where there are
both; the outer `none` is an abort on one of the slices. -/
def Utf8.fenced (mark s : List Char) : Option (Option (List Char)) :=
  match Utf8.find mark s with
  | none => some none
  | some start => do
    let after ← Utf8.sliceFrom s (start + Utf8.byteLen mark)
    match Utf8.find "```".toList after with
    | none => pure none
    | some stop => (Utf8.sliceTo after stop).map (fun block => some (trim block))

/-- The slice from the first opening to the last closing brace, where there are both. -/
def Utf8.outermost (s : List Char) : Option (Option (List Char)) :=
  match Utf8.find ['{'] s, Utf8.rfindChar '}' s with
  | some start, some stop => (Utf8.sliceInclusive s start stop).map some
  | _, _ => some none

def Utf8.extractJson (text : String) : Option String := do
  let trimmed := trim text.toList
  match ← Utf8.fenced "```json".toList trimmed with
  | some block => pure (.ofList block)
  | none =>
    match ← Utf8.fenced "```".toList trimmed with
    | some block => pure (.ofList block)
    | none =>
      match ← Utf8.outermost trimmed with
      | some object => pure (.ofList object)
      | none => pure (.ofList trimmed)

def Utf8.extractJsonBlock (w : World) (text : String) : Option (Option String) := do
  let trimmed := trim text.toList
  match ← Utf8.fenced "```json".toList trimmed with
  | some block => pure (some (.ofList block))
  | none =>
    match ← Utf8.outermost trimmed with
    | some candidate =>
      if w.serde.isValue (.ofList candidate) then pure (some (.ofList candidate)) else pure none
    | none => pure none

/-! ## Fences and braces -/

abbrev Text.fence : List Char := "```".toList

/-- A fence opened by `mark` and, behind it, the one that closes it. -/
def Text.Fenced (mark s : List Char) : Prop := ∃ a b c, s = a ++ mark ++ b ++ fence ++ c

/-- All closing braces come before all opening ones, and not side by side. -/
def Text.Inverted (s : List Char) : Prop :=
  ∃ a m b, s = a ++ '}' :: (m ++ '{' :: b) ∧ m ≠ [] ∧
    '{' ∉ a ∧ '{' ∉ m ∧ '}' ∉ m ∧ '}' ∉ b

/-- The slice from the first opening to the last closing brace, where there are both. -/
def Text.outermost (s : List Char) : Option (Option (List Char)) :=
  match find ['{'] s, rfindChar '}' s with
  | some start, some stop => (sliceInclusive s start stop).map some
  | _, _ => some none

section
variable {mark s t a b : List Char} {text : String} {w : World}

theorem Text.fenced_eq_cut (mark s : List Char) :
    fenced mark s = (cut mark s).bind (fun p => (cut fence p.2).map (fun q => trim q.1)) := by
  unfold fenced
  rw [find_eq_cut]
  cases hopen : cut mark s with
  | none => rfl
  | some p =>
    have hs := cut_eq_some (show cut mark s = some (p.1, p.2) from hopen)
    have hafter : s.drop (p.1.length + mark.length) = p.2 := by
      rw [hs, ← List.length_append, List.drop_left]
    simp only [Option.map_some, Option.bind_some]
    rw [hafter, find_eq_cut]
    cases hclose : cut fence p.2 with
    | none => rfl
    | some q =>
      have hq := cut_eq_some (show cut fence p.2 = some (q.1, q.2) from hclose)
      have htake : p.2.take q.1.length = q.1 := by
        rw [hq, List.append_assoc, List.take_left]
      simp only [Option.map_some]
      rw [htake]

/-- The ranges between two fences are sound on every text. -/
theorem utf8_fenced (mark s : List Char) : Utf8.fenced mark s = some (fenced mark s) := by
  rw [fenced_eq_cut]
  unfold Utf8.fenced
  rw [Utf8.find_eq_cut]
  cases hopen : cut mark s with
  | none => rfl
  | some p =>
    have hs := cut_eq_some (show cut mark s = some (p.1, p.2) from hopen)
    have hafter : Utf8.sliceFrom s (Utf8.byteLen p.1 + Utf8.byteLen mark) = some p.2 := by
      rw [hs, ← Utf8.byteLen_append, Utf8.sliceFrom_append]
    simp only [Option.map_some, Option.bind_some]
    rw [hafter, Option.bind_eq_bind, Option.bind_some, Utf8.find_eq_cut]
    cases hclose : cut fence p.2 with
    | none => rfl
    | some q =>
      have hq := cut_eq_some (show cut fence p.2 = some (q.1, q.2) from hclose)
      have hto : Utf8.sliceTo p.2 (Utf8.byteLen q.1) = some q.1 := by
        rw [hq, List.append_assoc, Utf8.sliceTo_append]
      simp only [Option.map_some]
      rw [hto]
      rfl

theorem Text.fenced_isSome_iff : (fenced mark s).isSome ↔ Fenced mark s := by
  rw [fenced_eq_cut]
  refine ⟨?_, ?_⟩
  · intro h
    obtain ⟨block, hblock⟩ := Option.isSome_iff_exists.mp h
    obtain ⟨p, hp, hq⟩ := Option.bind_eq_some_iff.mp hblock
    obtain ⟨q, hq, _⟩ := Option.map_eq_some_iff.mp hq
    have hs := cut_eq_some (show cut mark s = some (p.1, p.2) from hp)
    have hrest := cut_eq_some (show cut fence p.2 = some (q.1, q.2) from hq)
    refine ⟨p.1, q.1, q.2, ?_⟩
    rw [hs, hrest]
    simp only [List.append_assoc]
  · intro h
    obtain ⟨a, b, c, hs⟩ := h
    obtain ⟨a', m, hopen, _⟩ := cut_of_append mark a (b ++ fence ++ c)
    have hclose : (cut fence (m ++ (b ++ fence ++ c))).isSome :=
      cut_isSome_iff.mpr ⟨m ++ b, c, by simp only [List.append_assoc]⟩
    rw [hs, show a ++ mark ++ b ++ fence ++ c = a ++ mark ++ (b ++ fence ++ c) by
      simp only [List.append_assoc], hopen]
    simpa using hclose

instance (mark s : List Char) : Decidable (Fenced mark s) := decidable_of_iff _ fenced_isSome_iff

/-- A fence marked as JSON that is closed is a closed fence. -/
theorem Text.Fenced.of_json (h : Fenced "```json".toList s) : Fenced fence s := by
  obtain ⟨a, b, c, hs⟩ := h
  refine ⟨a, "json".toList ++ b, c, ?_⟩
  rw [hs, show "```json".toList = fence ++ "json".toList from rfl]
  simp only [List.append_assoc]

/-- The first opening brace comes before the last closing one, or at most one
character behind it, or further behind. -/
theorem Text.braces_cases {x y : List Char} (hopen : cut ['{'] s = some (a, b))
    (hclose : cutLast '}' s = some (x, y)) :
    (∃ m, s = a ++ m ++ y ∧ x ++ ['}'] = a ++ m) ∨
      ∃ m, s = x ++ '}' :: (m ++ '{' :: b) ∧ a = x ++ '}' :: m ∧ m ≠ [] := by
  obtain ⟨hs, _⟩ := cut_singleton_eq_some_iff.mp hopen
  obtain ⟨hs', _⟩ := cutLast_eq_some_iff.mp hclose
  have ha : a <+: s := ⟨_, hs.symm⟩
  have hx : x ++ ['}'] <+: s := ⟨y, by rw [hs']; simp⟩
  rcases List.prefix_or_prefix_of_prefix ha hx with hpre | hpre
  · obtain ⟨m, hm⟩ := hpre
    exact Or.inl ⟨m, by rw [hm, hs']; simp, hm.symm⟩
  · obtain ⟨m, hm⟩ := hpre
    cases m with
    | nil => exact Or.inl ⟨[], by rw [hs', ← hm]; simp, by simpa using hm⟩
    | cons c m =>
      refine Or.inr ⟨c :: m, ?_, ?_, by simp⟩
      · rw [hs, ← hm]
        simp
      · rw [← hm]
        simp

/-- The slice between the outermost braces in bytes is the one in characters. -/
theorem utf8_outermost (s : List Char) : Utf8.outermost s = outermost s := by
  unfold Utf8.outermost outermost
  rw [Utf8.find_eq_cut, Utf8.rfindChar_eq_cutLast, find_eq_cut, rfindChar_eq_cutLast]
  cases hopen : cut ['{'] s with
  | none => rfl
  | some p =>
    cases hclose : cutLast '}' s with
    | none => rfl
    | some q =>
      obtain ⟨a, b⟩ := p
      obtain ⟨x, y⟩ := q
      show (Utf8.sliceInclusive s (Utf8.byteLen a) (Utf8.byteLen x)).map some =
        (sliceInclusive s a.length x.length).map some
      rcases braces_cases hopen hclose with ⟨m, hs, hm⟩ | ⟨m, _, ha, hm⟩
      · have hbytes : Utf8.byteLen (a ++ m) = Utf8.byteLen x + 1 := by
          rw [← hm]
          simp [show ('}' : Char).utf8Size = 1 from rfl]
        have hlen : a.length + m.length = x.length + 1 := by
          simpa using (congrArg List.length hm).symm
        have hslice : sliceInclusive s a.length x.length = some m := by
          rw [sliceInclusive, if_pos (by omega), hs, List.append_assoc, List.drop_left,
            show x.length + 1 - a.length = m.length by omega, List.take_left]
        rw [hslice, hs, Utf8.sliceInclusive_append a m y hbytes]
      · have hpos : 0 < m.length := List.length_pos_iff.mpr hm
        have hbytes : Utf8.byteLen x + 1 < Utf8.byteLen a := by
          obtain ⟨c, m', hm'⟩ := List.exists_cons_of_ne_nil hm
          rw [ha, hm']
          have hpos := c.utf8Size_pos
          simp only [Utf8.byteLen_append, Utf8.byteLen_cons,
            show ('}' : Char).utf8Size = 1 from rfl]
          omega
        have hlen : x.length + 1 < a.length := by
          rw [ha]
          simp only [List.length_append, List.length_cons]
          omega
        rw [Utf8.sliceInclusive_eq_none hbytes, sliceInclusive_eq_none.mpr hlen]

/-- The slice between the outermost braces aborts exactly where the braces are inverted. -/
theorem Text.outermost_eq_none_iff : outermost s = none ↔ Inverted s := by
  have hunfold : outermost s = match (cut ['{'] s).map (·.1.length),
      (cutLast '}' s).map (·.1.length) with
      | some start, some stop => (sliceInclusive s start stop).map some
      | _, _ => some none := by
    rw [← find_eq_cut, ← rfindChar_eq_cutLast]
    rfl
  rw [hunfold]
  refine ⟨?_, ?_⟩
  · intro h
    cases hopen : cut ['{'] s with
    | none =>
      rw [hopen] at h
      cases h
    | some p =>
      cases hclose : cutLast '}' s with
      | none =>
        rw [hopen, hclose] at h
        cases h
      | some q =>
        obtain ⟨a, b⟩ := p
        obtain ⟨x, y⟩ := q
        rw [hopen, hclose] at h
        have hlen := sliceInclusive_eq_none.mp (Option.map_eq_none_iff.mp h)
        obtain ⟨hs, hno⟩ := cut_singleton_eq_some_iff.mp hopen
        obtain ⟨hs', hno'⟩ := cutLast_eq_some_iff.mp hclose
        rcases braces_cases hopen hclose with ⟨m, _, hm⟩ | ⟨m, hsm, ha, hm⟩
        · have hm' := congrArg List.length hm
          simp only [List.length_append, List.length_singleton] at hm'
          dsimp only at hlen
          omega
        · have hy : y = m ++ '{' :: b := by
            rw [hsm] at hs'
            simpa using hs'.symm
          rw [ha] at hno
          rw [hy] at hno'
          simp only [List.mem_append, List.mem_cons, not_or] at hno hno'
          exact ⟨x, m, b, hsm, hm, hno.1, hno.2.2, hno'.1, hno'.2.2⟩
  · intro h
    obtain ⟨a, m, b, hs, hm, hopenA, hopenM, hcloseM, hcloseB⟩ := h
    have hopen : cut ['{'] s = some (a ++ '}' :: m, b) := by
      refine cut_singleton_eq_some_iff.mpr ⟨by rw [hs]; simp, ?_⟩
      simp [hopenA, hopenM]
    have hclose : cutLast '}' s = some (a, m ++ '{' :: b) := by
      refine cutLast_eq_some_iff.mpr ⟨hs, ?_⟩
      simp [hcloseM, hcloseB]
    rw [hopen, hclose]
    refine Option.map_eq_none_iff.mpr (sliceInclusive_eq_none.mpr ?_)
    have hpos : 0 < m.length := List.length_pos_iff.mpr hm
    simp only [List.length_append, List.length_cons]
    omega

/-! ## Trimming leaves fences and braces alone -/

theorem Text.fenced_trim_iff (hmark : fence <+: mark) : Fenced mark (trim s) ↔ Fenced mark s := by
  refine ⟨?_, ?_⟩
  · intro h
    obtain ⟨a, b, c, hs⟩ := h
    obtain ⟨l, r, htrim, _, _⟩ := exists_trim s
    refine ⟨l ++ a, b, c ++ r, ?_⟩
    rw [htrim, hs]
    simp only [List.append_assoc]
  · intro h
    obtain ⟨a, b, c, hs⟩ := h
    obtain ⟨rest, hrest⟩ := hmark
    have hbounded : Bounded (mark ++ b ++ fence) := by
      refine ⟨⟨'`', ?_, by decide⟩, '`', ?_, by decide⟩
      · rw [← hrest]
        rfl
      · rw [List.getLast?_append]
        rfl
    refine ⟨trimStart a, b, trimEnd c, ?_⟩
    rw [hs, show a ++ mark ++ b ++ fence ++ c = a ++ (mark ++ b ++ fence) ++ c by
      simp only [List.append_assoc], trim_append hbounded]
    simp only [List.append_assoc]

theorem Text.inverted_trim_iff : Inverted (trim s) ↔ Inverted s := by
  have hspace : ∀ {l : List Char}, (∀ c ∈ l, isWhitespace c = true) → '{' ∉ l ∧ '}' ∉ l :=
    fun hl => ⟨fun hmem => absurd (hl _ hmem) (by decide),
      fun hmem => absurd (hl _ hmem) (by decide)⟩
  refine ⟨?_, ?_⟩
  · intro h
    obtain ⟨a, m, b, hs, hm, h1, h2, h3, h4⟩ := h
    obtain ⟨l, r, htrim, hl, hr⟩ := exists_trim s
    refine ⟨l ++ a, m, b ++ r, ?_, hm, ?_, h2, h3, ?_⟩
    · rw [htrim, hs]
      simp
    · simp [h1, (hspace hl).1]
    · simp [h4, (hspace hr).2]
  · intro h
    obtain ⟨a, m, b, hs, hm, h1, h2, h3, h4⟩ := h
    have hbounded : Bounded ('}' :: (m ++ ['{'])) := by
      refine ⟨⟨'}', rfl, by decide⟩, '{', ?_, by decide⟩
      rw [List.getLast?_cons, List.getLast?_append]
      rfl
    refine ⟨trimStart a, m, trimEnd b, ?_, hm, ?_, h2, h3, ?_⟩
    · rw [hs, show a ++ '}' :: (m ++ '{' :: b) = a ++ ('}' :: (m ++ ['{'])) ++ b by simp,
        trim_append hbounded]
      simp
    · exact fun hmem => h1 ((List.dropWhile_sublist _).mem hmem)
    · intro hmem
      refine h4 (List.mem_reverse.mp ((List.dropWhile_sublist isWhitespace).mem ?_))
      exact List.mem_reverse.mp hmem

/-! ## The extractors -/

theorem extractJson_eq (text : String) :
    extractJson text =
      match fenced "```json".toList (trim text.toList) with
      | some block => some (.ofList block)
      | none =>
        match fenced fence (trim text.toList) with
        | some block => some (.ofList block)
        | none => (outermost (trim text.toList)).map
            (fun object => .ofList (object.getD (trim text.toList))) := by
  unfold extractJson outermost
  generalize trim text.toList = s
  dsimp only
  cases fenced "```json".toList s with
  | some block => rfl
  | none =>
    cases fenced fence s with
    | some block => rfl
    | none =>
      cases find ['{'] s with
      | none => rfl
      | some start =>
        cases rfindChar '}' s with
        | none => rfl
        | some stop =>
          dsimp only
          rw [Option.map_map]
          rfl

theorem extractJsonBlock_eq (w : World) (text : String) :
    extractJsonBlock w text =
      match fenced "```json".toList (trim text.toList) with
      | some block => some (some (.ofList block))
      | none => (outermost (trim text.toList)).map (fun object => object.bind (fun candidate =>
          if w.serde.isValue (.ofList candidate) then some (.ofList candidate) else none)) := by
  unfold extractJsonBlock outermost
  generalize trim text.toList = s
  dsimp only
  cases fenced "```json".toList s with
  | some block => rfl
  | none =>
    cases find ['{'] s with
    | none => rfl
    | some start =>
      cases rfindChar '}' s with
      | none => rfl
      | some stop =>
        dsimp only
        rw [Option.map_map]
        rfl

/-- In bytes and in characters the planner's extractor does the same. -/
theorem utf8_extractJson (text : String) : Utf8.extractJson text = extractJson text := by
  rw [extractJson_eq]
  unfold Utf8.extractJson
  simp only [utf8_fenced, utf8_outermost, Option.bind_eq_bind, Option.bind_some]
  cases fenced "```json".toList (trim text.toList) with
  | some block => rfl
  | none =>
    dsimp only
    cases fenced fence (trim text.toList) with
    | some block => rfl
    | none =>
      cases outermost (trim text.toList) with
      | none => rfl
      | some object => cases object <;> rfl

/-- In bytes and in characters the reviewer's extractor does the same. -/
theorem utf8_extractJsonBlock (w : World) (text : String) :
    Utf8.extractJsonBlock w text = extractJsonBlock w text := by
  rw [extractJsonBlock_eq]
  unfold Utf8.extractJsonBlock
  simp only [utf8_fenced, utf8_outermost, Option.bind_eq_bind, Option.bind_some]
  cases fenced "```json".toList (trim text.toList) with
  | some block => rfl
  | none =>
    cases outermost (trim text.toList) with
    | none => rfl
    | some object =>
      cases object with
      | none => rfl
      | some candidate =>
        show (if _ then _ else _) = some (if _ then _ else _)
        split <;> rfl

theorem extractJson_eq_none_iff :
    extractJson text = none ↔ ¬ Fenced fence text.toList ∧ Inverted text.toList := by
  have hjson : (fenced "```json".toList (trim text.toList)).isSome →
      (fenced fence (trim text.toList)).isSome := by
    rw [fenced_isSome_iff, fenced_isSome_iff]
    exact Fenced.of_json
  rw [extractJson_eq, ← inverted_trim_iff, ← outermost_eq_none_iff,
    ← fenced_trim_iff (List.prefix_refl fence), ← fenced_isSome_iff]
  cases h : fenced "```json".toList (trim text.toList) with
  | some block =>
    rw [h] at hjson
    simp [hjson rfl]
  | none =>
    cases fenced fence (trim text.toList) with
    | some block => simp
    | none => simp

theorem extractJsonBlock_eq_none_iff :
    extractJsonBlock w text = none ↔
      ¬ Fenced "```json".toList text.toList ∧ Inverted text.toList := by
  have hmark : fence <+: "```json".toList := ⟨"json".toList, rfl⟩
  rw [extractJsonBlock_eq, ← inverted_trim_iff, ← outermost_eq_none_iff,
    ← fenced_trim_iff hmark, ← fenced_isSome_iff]
  cases fenced "```json".toList (trim text.toList) with
  | some block => simp
  | none => simp

/-- On every text the planner's extractor returns exactly if the text has a closed fence or
its braces are not inverted, and the reviewer's exactly if it has a closed fence marked as
JSON or its braces are not inverted. -/
theorem extraction_iff (w : World) (text : String) :
    ((Utf8.extractJson text).isSome ↔
        Fenced fence text.toList ∨ ¬ Inverted text.toList) ∧
      ((Utf8.extractJsonBlock w text).isSome ↔
        Fenced "```json".toList text.toList ∨ ¬ Inverted text.toList) := by
  rw [utf8_extractJson, utf8_extractJsonBlock, ← not_iff_not, ← not_iff_not (a := Option.isSome _),
    Option.not_isSome_iff_eq_none, Option.not_isSome_iff_eq_none, extractJson_eq_none_iff,
    extractJsonBlock_eq_none_iff]
  simp only [not_or, not_not, and_self]

end

/-- A closing brace, a space and an opening brace abort both extractors. -/
theorem not_extraction_inverted :
    Utf8.extractJson "\x7d \x7b" = none ∧ Utf8.extractJsonBlock World.bare "\x7d \x7b" = none :=
  ⟨by rfl, by rfl⟩

end ZeptoPM
