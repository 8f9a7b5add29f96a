import ZeptoPM.Payload

/- JSON text as a writer makes it: fixed punctuation, keys and numbers between the
   strings of the value, with quotes, backslashes and control characters of the strings
   escaped. A fence in the text is a fence in one of the strings
   (`Rendering.fence_infix_iff`): quotes keep the strings apart, and an escape sequence
   begins with a backslash. -/
namespace ZeptoPM
open Text

/-- How a writer of JSON spells a character of a string. -/
structure Escaping where
  escape : Char → List Char
  /-- Only quotes, backslashes and control characters are escaped. -/
  plain : ∀ c, c ≠ '"' → c ≠ '\\' → 0x20 ≤ c.toNat → escape c = [c]
  /-- An escape sequence is a backslash and a code. -/
  spelled : ∀ c, escape c = [c] ∨ ∃ code, escape c = '\\' :: code ∧ '`' ∉ code

inductive JsonPart where
  /-- Punctuation, a key, a number or a word. -/
  | literal (text : List Char)
  | string (s : String)
  deriving DecidableEq

def JsonPart.text (e : Escaping) : JsonPart → List Char
  | .literal text => text
  | .string s => '"' :: (s.toList.flatMap e.escape ++ ['"'])

/-- The parts hold exactly the given strings, and no backtick outside of them. -/
structure Spells (strings : List String) (parts : List JsonPart) : Prop where
  literal : ∀ t, .literal t ∈ parts → '`' ∉ t
  string : ∀ s, .string s ∈ parts ↔ s ∈ strings

/-- The text of a JSON object in which exactly the given strings occur. -/
structure Rendering (strings : List String) where
  escaping : Escaping
  parts : List JsonPart
  spells : Spells strings parts
  opens : (parts.flatMap (JsonPart.text escaping)).head? = some '{'
  closes : (parts.flatMap (JsonPart.text escaping)).getLast? = some '}'

/-- The text itself. -/
def Rendering.payload {strings : List String} (r : Rendering strings) : Payload :=
  ⟨r.parts.flatMap (JsonPart.text r.escaping), r.opens, r.closes⟩

section
variable {strings : List String} {e : Escaping} {s : List Char}

/-! ## Fences in strings -/

/-- Backticks at the front of the spelling are backticks at the front of the string. -/
theorem Escaping.replicate_prefix {n : Nat} (h : List.replicate n '`' <+: s.flatMap e.escape) :
    List.replicate n '`' <+: s := by
  induction n generalizing s with
  | zero => exact List.nil_prefix
  | succ n ih =>
    cases s with
    | nil => exact absurd h.length_le (by simp)
    | cons c s =>
      rw [List.flatMap_cons, List.replicate_succ] at h
      rcases e.spelled c with hc | ⟨code, hc, _⟩
      · rw [hc, List.singleton_append] at h
        obtain ⟨hfirst, hrest⟩ := List.cons_prefix_cons.mp h
        rw [List.replicate_succ, ← hfirst]
        exact List.cons_prefix_cons.mpr ⟨rfl, ih hrest⟩
      · rw [hc] at h
        obtain ⟨hfirst, _⟩ := List.cons_prefix_cons.mp h
        exact absurd hfirst (by decide)

/-- A fence in the spelling of a string is a fence in the string. -/
theorem Escaping.fence_infix_iff (e : Escaping) (s : List Char) :
    fence <:+: s.flatMap e.escape ↔ fence <:+: s := by
  refine ⟨?_, ?_⟩
  · intro h
    induction s with
    | nil => exact h
    | cons c s ih =>
      rw [List.flatMap_cons] at h
      rcases e.spelled c with hc | ⟨code, hc, hcode⟩
      · rw [hc, List.singleton_append] at h
        rcases List.infix_cons_iff.mp h with hpre | hin
        · refine List.IsPrefix.isInfix ?_
          have hspelled : List.replicate 3 '`' <+: (c :: s).flatMap e.escape := by
            rw [List.flatMap_cons, hc]
            exact hpre
          exact e.replicate_prefix hspelled
        · exact (ih hin).trans (List.suffix_cons c s).isInfix
      · -- the fence is behind the escape sequence
        have hfree : '`' ∉ e.escape c := by
          rw [hc]
          simp [hcode]
        rcases fence_infix_append (Or.inl fun hlast => hfree (List.mem_of_getLast? hlast)) h with
          hin | hin
        · exact absurd hin (no_fence_within hfree)
        · exact (ih hin).trans (List.suffix_cons c s).isInfix
  · intro h
    obtain ⟨a, b, hs⟩ := h
    refine ⟨a.flatMap e.escape, b.flatMap e.escape, ?_⟩
    have hfence : fence.flatMap e.escape = fence := by
      have htick : e.escape '`' = ['`'] := e.plain '`' (by decide) (by decide) (by decide)
      rw [show fence = ['`', '`', '`'] from rfl]
      simp [htick]
    rw [← hs, List.flatMap_append, List.flatMap_append, hfence]

theorem JsonPart.fence_infix_string (e : Escaping) (s : String) :
    fence <:+: JsonPart.text e (.string s) ↔ fence <:+: s.toList := by
  rw [← e.fence_infix_iff s.toList]
  refine ⟨?_, ?_⟩
  · intro h
    have hopen := fence_infix_append (x := ['"']) (Or.inl (by decide)) h
    rcases hopen with hin | hin
    · exact absurd hin (no_fence_within (by decide))
    · rcases fence_infix_append (y := ['"']) (Or.inr (by decide)) hin with hin | hin
      · exact hin
      · exact absurd hin (no_fence_within (by decide))
  · intro h
    exact h.trans ⟨['"'], ['"'], rfl⟩

/-- A fence in the text of a JSON object is a fence in one of its strings. -/
theorem Rendering.fence_infix_iff (r : Rendering strings) :
    fence <:+: r.payload.text ↔ ∃ s ∈ strings, fence <:+: s.toList := by
  -- the parts after each other, with the strings they hold
  have hparts : ∀ parts : List JsonPart, (∀ t, .literal t ∈ parts → '`' ∉ t) →
      fence <:+: parts.flatMap (JsonPart.text r.escaping) →
      ∃ s, .string s ∈ parts ∧ fence <:+: s.toList := by
    intro parts hliteral h
    induction parts with
    | nil => exact absurd (List.eq_nil_of_infix_nil h) (by decide)
    | cons part parts ih =>
      rw [List.flatMap_cons] at h
      have hlast : (JsonPart.text r.escaping part).getLast? ≠ some '`' := by
        cases part with
        | literal t =>
          exact fun hlast => hliteral t List.mem_cons_self (List.mem_of_getLast? hlast)
        | string s =>
          have hquote : (JsonPart.text r.escaping (.string s)).getLast? = some '"' := by
            unfold JsonPart.text
            rw [List.getLast?_cons, List.getLast?_append]
            rfl
          rw [hquote]
          decide
      rcases fence_infix_append (Or.inl hlast) h with hin | hin
      · cases part with
        | literal t => exact absurd hin (no_fence_within (hliteral t List.mem_cons_self))
        | string s =>
          exact ⟨s, List.mem_cons_self, (JsonPart.fence_infix_string r.escaping s).mp hin⟩
      · obtain ⟨s, hs, hfence⟩ := ih (fun t ht => hliteral t (List.mem_cons_of_mem _ ht)) hin
        exact ⟨s, List.mem_cons_of_mem _ hs, hfence⟩
  refine ⟨?_, ?_⟩
  · intro h
    obtain ⟨s, hs, hfence⟩ := hparts r.parts r.spells.literal h
    exact ⟨s, (r.spells.string s).mp hs, hfence⟩
  · intro h
    obtain ⟨s, hs, hfence⟩ := h
    refine ((JsonPart.fence_infix_string r.escaping s).mpr hfence).trans ?_
    obtain ⟨before, after, hsplit⟩ := List.append_of_mem ((r.spells.string s).mpr hs)
    refine ⟨before.flatMap (JsonPart.text r.escaping), after.flatMap (JsonPart.text r.escaping), ?_⟩
    show _ = r.parts.flatMap (JsonPart.text r.escaping)
    rw [hsplit, List.flatMap_append, List.flatMap_cons, List.append_assoc]

end

/-! ## A writer -/

/-- The escape sequences of `serde_json`. -/
def serdeEscape (c : Char) : List Char :=
  if c = '"' then "\\\"".toList
  else if c = '\\' then "\\\\".toList
  else if 0x20 ≤ c.toNat then [c]
  else
    match c.toNat with
    | 8 => "\\b".toList
    | 9 => "\\t".toList
    | 10 => "\\n".toList
    | 12 => "\\f".toList
    | 13 => "\\r".toList
    | n => "\\u00".toList ++ [(n / 16).digitChar, (n % 16).digitChar]

def serdeEscaping : Escaping where
  escape := serdeEscape
  plain := by
    intro c hquote hslash hcontrol
    rw [serdeEscape, if_neg hquote, if_neg hslash, if_pos hcontrol]
  spelled := by
    intro c
    have hcode : ∀ n < 0x20, '`' ∉ [(n / 16).digitChar, (n % 16).digitChar] := by decide
    unfold serdeEscape
    split
    · exact Or.inr ⟨['"'], rfl, by decide⟩
    · split
      · exact Or.inr ⟨['\\'], rfl, by decide⟩
      · split
        · exact Or.inl rfl
        · rename_i hcontrol
          refine Or.inr ?_
          split
          · exact ⟨['b'], rfl, by decide⟩
          · exact ⟨['t'], rfl, by decide⟩
          · exact ⟨['n'], rfl, by decide⟩
          · exact ⟨['f'], rfl, by decide⟩
          · exact ⟨['r'], rfl, by decide⟩
          · refine ⟨'u' :: '0' :: '0' :: [(c.toNat / 16).digitChar, (c.toNat % 16).digitChar], rfl,
              ?_⟩
            have hno := hcode c.toNat (by omega)
            intro hmem
            simp only [List.mem_cons, Char.reduceEq, false_or] at hmem hno
            exact hno hmem

/-- The elements of a JSON array, or the fields of an object, with commas between them. -/
def commaSep : List (List JsonPart) → List JsonPart
  | [] => []
  | [x] => x
  | x :: y :: rest => x ++ .literal [','] :: commaSep (y :: rest)

theorem Spells.literalPart {t : List Char} (h : '`' ∉ t) : Spells [] [.literal t] where
  literal := by
    intro t' ht'
    rw [List.mem_singleton, JsonPart.literal.injEq] at ht'
    exact ht' ▸ h
  string := by simp

theorem Spells.stringPart (s : String) : Spells [s] [.string s] where
  literal := by simp
  string := by simp

theorem Spells.append {a b : List String} {p q : List JsonPart} (hp : Spells a p)
    (hq : Spells b q) : Spells (a ++ b) (p ++ q) where
  literal := by
    intro t ht
    rcases List.mem_append.mp ht with ht | ht
    · exact hp.literal t ht
    · exact hq.literal t ht
  string := by
    intro s
    rw [List.mem_append, List.mem_append, hp.string, hq.string]

theorem Spells.commaSep {α : Type} {strings : α → List String} {parts : α → List JsonPart}
    {xs : List α} (h : ∀ x ∈ xs, Spells (strings x) (parts x)) :
    Spells (xs.flatMap strings) (commaSep (xs.map parts)) := by
  induction xs with
  | nil => exact ⟨by simp [ZeptoPM.commaSep], by simp [ZeptoPM.commaSep]⟩
  | cons x xs ih =>
    have hx := h x List.mem_cons_self
    have hxs := ih fun y hy => h y (List.mem_cons_of_mem _ hy)
    rw [List.flatMap_cons]
    cases xs with
    | nil => simpa [ZeptoPM.commaSep] using hx
    | cons y ys => exact hx.append ((literalPart (by decide)).append hxs)

/-- An array of strings. -/
def stringArray (xs : List String) : List JsonPart :=
  .literal ['['] :: (commaSep (xs.map (fun s => [.string s])) ++ [.literal [']']])

theorem Spells.stringArray (xs : List String) : Spells xs (stringArray xs) := by
  have hstrings := Spells.commaSep fun s (_ : s ∈ xs) => stringPart s
  have h := (literalPart (t := ['[']) (by decide)).append
    (hstrings.append (literalPart (t := [']']) (by decide)))
  simpa [ZeptoPM.stringArray] using h

end ZeptoPM
