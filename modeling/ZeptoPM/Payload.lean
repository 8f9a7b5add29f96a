import ZeptoPM.Extraction

/- A JSON object in the text of an agent, between prose that has neither backticks nor
   braces, alone or in a fence marked as JSON. Every backtick of such a text is one of the
   object or of the fence around it, so what the extractors find is told by the fences
   in the object: a block that is closed by one of them has too few backticks to be the
   object. -/
namespace ZeptoPM.Text

/-- The text of a JSON object. -/
structure Payload where
  text : List Char
  opens : text.head? = some '{'
  closes : text.getLast? = some '}'

/-- Prose without backticks and braces. -/
structure Prose where
  text : List Char
  plain : ∀ c ∈ text, c ≠ '`' ∧ c ≠ '{' ∧ c ≠ '}'

structure Blank where
  text : List Char
  blank : ∀ c ∈ text, isWhitespace c = true

/-- The object between two texts. -/
def alone (before : Prose) (json : Payload) (after : Prose) : List Char :=
  before.text ++ json.text ++ after.text

/-- The object in a fence marked as JSON between two texts. -/
def inFence (before : Prose) (lead : Blank) (json : Payload) (trail : Blank) (after : Prose) :
    List Char :=
  before.text ++ ("```json".toList ++ (lead.text ++ json.text ++ trail.text) ++ fence) ++ after.text

def Prose.trimStart (p : Prose) : Prose :=
  ⟨Text.trimStart p.text, fun c hc => p.plain c ((List.dropWhile_sublist _).mem hc)⟩

def Prose.trimEnd (p : Prose) : Prose :=
  ⟨Text.trimEnd p.text, fun c hc => p.plain c (List.mem_reverse.mp
    ((List.dropWhile_sublist isWhitespace).mem (List.mem_reverse.mp hc)))⟩

section
variable {s x y mark block : List Char}

theorem Prose.not_mem_backtick (p : Prose) : '`' ∉ p.text := fun h => (p.plain _ h).1 rfl

theorem Prose.not_mem_open (p : Prose) : '{' ∉ p.text := fun h => (p.plain _ h).2.1 rfl

theorem Prose.not_mem_close (p : Prose) : '}' ∉ p.text := fun h => (p.plain _ h).2.2 rfl

theorem Blank.not_mem_backtick (b : Blank) : '`' ∉ b.text :=
  fun h => absurd (b.blank _ h) (by decide)

theorem Payload.bounded (json : Payload) : Bounded json.text :=
  ⟨⟨'{', json.opens, by decide⟩, '}', json.closes, by decide⟩

/-! ## Runs of backticks -/

theorem append_eq_of_not_mem_left {p a t : List Char} {c : Char} (h : p ++ s = a ++ c :: t)
    (hp : c ∉ p) : ∃ a', a = p ++ a' ∧ s = a' ++ c :: t := by
  induction p generalizing a with
  | nil => exact ⟨a, rfl, h⟩
  | cons d p ih =>
    cases a with
    | nil =>
      obtain ⟨hd, _⟩ := List.cons.inj h
      exact absurd (hd ▸ List.mem_cons_self) hp
    | cons e a =>
      obtain ⟨hd, htail⟩ := List.cons.inj h
      obtain ⟨a', ha, hs⟩ := ih htail (fun hmem => hp (List.mem_cons_of_mem _ hmem))
      exact ⟨a', by rw [hd, ha]; rfl, hs⟩

theorem append_eq_of_not_mem_right {p t b : List Char} {c : Char} (h : s ++ p = t ++ c :: b)
    (hp : c ∉ p) : ∃ b', b = b' ++ p ∧ s = t ++ c :: b' := by
  have hrev : p.reverse ++ s.reverse = b.reverse ++ c :: t.reverse := by
    have h' := congrArg List.reverse h
    simpa using h'
  obtain ⟨a', ha, hs⟩ := append_eq_of_not_mem_left hrev (by simpa using hp)
  refine ⟨a'.reverse, ?_, ?_⟩
  · rw [← List.reverse_reverse b, ha]
    simp
  · rw [← List.reverse_reverse s, hs]
    simp

theorem eq_backtick_of_mem {c : Char} (h : c ∈ fence) : c = '`' := by
  rw [show fence = ['`', '`', '`'] from rfl] at h
  simpa using h

/-- A fence lies on one side of a place where no backtick stands before it or behind it. -/
theorem fence_infix_append (hsep : x.getLast? ≠ some '`' ∨ y.head? ≠ some '`')
    (h : fence <:+: x ++ y) : fence <:+: x ∨ fence <:+: y := by
  obtain ⟨a, b, hab⟩ := h
  rw [List.append_assoc] at hab
  rcases List.append_eq_append_iff.mp hab with ⟨k, hx, hk⟩ | ⟨k, _, hy⟩
  · -- the fence begins before the place: it ends there too, or the place has it on both sides
    rcases List.append_eq_append_iff.mp hk with ⟨l, hl, _⟩ | ⟨l, hl, hy⟩
    · exact Or.inl ⟨a, l, by rw [hx, hl, List.append_assoc]⟩
    · cases l with
      | nil => exact Or.inl ⟨a, [], by rw [hx, ← List.append_nil k, ← hl]; simp⟩
      | cons c l =>
        have hc : c = '`' := eq_backtick_of_mem (by rw [hl]; simp)
        cases hk' : k.getLast? with
        | none =>
          rw [List.getLast?_eq_none_iff.mp hk', List.nil_append] at hl
          exact Or.inr ⟨[], b, by rw [hl, hy]; rfl⟩
        | some d =>
          have hd : d = '`' := eq_backtick_of_mem <| by
            rw [hl]
            exact List.mem_append_left _ (List.mem_of_getLast? hk')
          rcases hsep with hno | hno
          · refine absurd ?_ hno
            rw [hx, List.getLast?_append, hk', hd]
            rfl
          · refine absurd ?_ hno
            rw [hy, hc]
            rfl
  · exact Or.inr ⟨k, b, by rw [hy, List.append_assoc]⟩

theorem no_fence_within (h : '`' ∉ x) : ¬ fence <:+: x :=
  fun hin => h (hin.subset (List.mem_cons_self))

/-- The first fence behind a text that has none and does not end with a backtick. -/
theorem cut_fence_append (hx : ¬ fence <:+: x) (hlast : x.getLast? ≠ some '`') (y : List Char) :
    cut fence (x ++ fence ++ y) = some (x, y) := by
  obtain ⟨a, m, hcut, hm⟩ := cut_of_append fence x y
  cases hend : m.getLast? with
  | none =>
    rw [List.getLast?_eq_none_iff.mp hend] at hcut hm
    rw [List.append_nil, List.append_left_inj] at hm
    rw [hcut, hm]
    rfl
  | some c =>
    -- an earlier fence would end before the last backtick
    obtain ⟨m', hm'⟩ := List.getLast?_eq_some_iff.mp hend
    have hshort : a ++ fence ++ m' = x ++ ['`', '`'] := by
      have h : (a ++ fence ++ m') ++ [c] = (x ++ ['`', '`']) ++ ['`'] := by
        rw [List.append_assoc, ← hm', hm, List.append_assoc]
        rfl
      exact (List.append_inj' h rfl).1
    rcases fence_infix_append (Or.inl hlast) ⟨a, m', hshort⟩ with h | h
    · exact absurd h hx
    · exact absurd h.length_le (by decide)

/-! ## Counting backticks -/

theorem trim_within (s : List Char) : trim s <:+: s := by
  obtain ⟨l, r, hs, _, _⟩ := exists_trim s
  exact ⟨l, r, hs.symm⟩

theorem count_trim_le (c : Char) (s : List Char) : (trim s).count c ≤ s.count c :=
  (trim_within s).sublist.count_le c

/-- A block lacks at least the backticks of the two fences. -/
theorem fenced_count (h : fenced mark s = some block) :
    block.count '`' + mark.count '`' + 3 ≤ s.count '`' := by
  rw [fenced_eq_cut] at h
  obtain ⟨p, hp, hq⟩ := Option.bind_eq_some_iff.mp h
  obtain ⟨q, hq, hblock⟩ := Option.map_eq_some_iff.mp hq
  have htrim := count_trim_le '`' q.1
  rw [cut_eq_some (show cut mark s = some (p.1, p.2) from hp),
    cut_eq_some (show cut fence p.2 = some (q.1, q.2) from hq), ← hblock]
  have hfence : List.count '`' fence = 3 := by decide
  simp only [List.count_append, hfence]
  omega

theorem Prose.count (p : Prose) : p.text.count '`' = 0 :=
  List.count_eq_zero.mpr p.not_mem_backtick

theorem Blank.count (b : Blank) : b.text.count '`' = 0 :=
  List.count_eq_zero.mpr b.not_mem_backtick

/-! ## The object alone -/

variable (before after : Prose) (lead trail : Blank) (json : Payload)

theorem trim_alone : trim (alone before json after) = alone before.trimStart json after.trimEnd :=
  trim_append json.bounded ..

/-- A part of the text with a backtick at each end lies in the object. -/
theorem mem_alone {a b : List Char} (hhead : x.head? = some '`') (hlast : x.getLast? = some '`')
    (h : alone before json after = a ++ x ++ b) : ∃ a' b', json.text = a' ++ x ++ b' := by
  obtain ⟨x₁, hx₁⟩ := List.head?_eq_some_iff.mp hhead
  obtain ⟨x₂, hx₂⟩ := List.getLast?_eq_some_iff.mp hlast
  have hfront : before.text ++ (json.text ++ after.text) = a ++ '`' :: (x₁ ++ b) := by
    rw [← List.append_assoc]
    exact h.trans (by rw [hx₁]; simp)
  obtain ⟨a', _, hrest⟩ := append_eq_of_not_mem_left hfront before.not_mem_backtick
  have hback : json.text ++ after.text = (a' ++ x₂) ++ '`' :: b := by
    rw [hrest, ← List.cons_append, ← hx₁, hx₂]
    simp
  obtain ⟨b', _, hjson⟩ := append_eq_of_not_mem_right hback after.not_mem_backtick
  refine ⟨a', b', ?_⟩
  rw [hjson, hx₂]
  simp

/-- A closed fence in the text is one in the object. -/
theorem fenced_alone_iff (hmark : fence <+: mark) :
    Fenced mark (alone before json after) ↔ Fenced mark json.text := by
  refine ⟨?_, ?_⟩
  · intro h
    obtain ⟨a, m, b, hs⟩ := h
    obtain ⟨rest, hrest⟩ := hmark
    obtain ⟨a', b', hjson⟩ := mem_alone before after json (x := mark ++ m ++ fence) (a := a)
      (b := b) (by rw [← hrest]; rfl) (by rw [List.getLast?_append]; rfl)
      (by rw [hs]; simp only [List.append_assoc])
    exact ⟨a', m, b', by rw [hjson]; simp only [List.append_assoc]⟩
  · intro h
    obtain ⟨a, m, b, hs⟩ := h
    refine ⟨before.text ++ a, m, b ++ after.text, ?_⟩
    rw [alone, hs]
    simp only [List.append_assoc]

/-- A block in the text is not the object. -/
theorem ne_of_fenced_alone (h : fenced mark (alone before json after) = some block) :
    block ≠ json.text := by
  intro heq
  have hcount := fenced_count h
  unfold alone at hcount
  simp only [List.count_append, before.count, after.count, heq] at hcount
  omega

/-- A block in the text is a part of the object. -/
theorem infix_of_fenced_alone (hmark : fence <+: mark)
    (h : fenced mark (alone before json after) = some block) : block <:+: json.text := by
  rw [fenced_eq_cut] at h
  obtain ⟨p, hp, hq⟩ := Option.bind_eq_some_iff.mp h
  obtain ⟨q, hq, hblock⟩ := Option.map_eq_some_iff.mp hq
  obtain ⟨rest, hrest⟩ := hmark
  obtain ⟨a, b, hjson⟩ := mem_alone before after json (x := mark ++ q.1 ++ fence) (a := p.1)
    (b := q.2) (by rw [← hrest]; rfl) (by rw [List.getLast?_append]; rfl) (by
      rw [cut_eq_some (show cut mark _ = some (p.1, p.2) from hp),
        cut_eq_some (show cut fence p.2 = some (q.1, q.2) from hq)]
      simp only [List.append_assoc])
  rw [← hblock]
  refine (trim_within q.1).trans ⟨a ++ mark, fence ++ b, ?_⟩
  rw [hjson]
  simp only [List.append_assoc]

/-- The object is what lies between the outermost braces. -/
theorem outermost_alone : outermost (alone before json after) = some (some json.text) := by
  obtain ⟨t, ht⟩ := List.head?_eq_some_iff.mp json.opens
  obtain ⟨u, hu⟩ := List.getLast?_eq_some_iff.mp json.closes
  have hopen : cut ['{'] (alone before json after) = some (before.text, t ++ after.text) := by
    refine cut_singleton_eq_some_iff.mpr ⟨?_, before.not_mem_open⟩
    rw [alone, ht]
    simp
  have hclose : cutLast '}' (alone before json after) = some (before.text ++ u, after.text) := by
    refine cutLast_eq_some_iff.mpr ⟨?_, after.not_mem_close⟩
    rw [alone, hu]
    simp
  have hlen : (before.text ++ u).length + 1 = before.text.length + json.text.length := by
    rw [hu]
    simp
    omega
  unfold outermost
  rw [find_eq_cut, rfindChar_eq_cutLast, hopen, hclose]
  show (sliceInclusive _ before.text.length (before.text ++ u).length).map some = _
  rw [sliceInclusive, if_pos (by omega), alone, List.append_assoc, List.drop_left, hlen,
    Nat.add_sub_cancel_left, List.take_left]
  rfl

/-! ## The object in a fence -/

theorem trim_inFence :
    trim (inFence before lead json trail after) =
      inFence before.trimStart lead json trail after.trimEnd :=
  trim_append ⟨⟨'`', rfl, by decide⟩, '`', by rw [List.getLast?_append]; rfl, by decide⟩ ..

/-- If the object has a fence in it, the block ends at the first of them. -/
theorem cut_fence_early {p : List Char × List Char} (hin : cut fence json.text = some p) :
    cut fence (lead.text ++ json.text ++ trail.text ++ fence ++ after.text) =
      some (lead.text ++ p.1, p.2 ++ (trail.text ++ fence ++ after.text)) := by
  rw [show lead.text ++ json.text ++ trail.text ++ fence ++ after.text =
      lead.text ++ (json.text ++ (trail.text ++ fence ++ after.text)) by
    simp only [List.append_assoc],
    cut_append_left (c := '`') rfl lead.not_mem_backtick, cut_append_right hin]
  rfl

/-- Otherwise it ends where the fence is closed. -/
theorem cut_fence_close (hno : ¬ fence <:+: json.text) :
    cut fence (lead.text ++ json.text ++ trail.text ++ fence ++ after.text) =
      some (lead.text ++ (json.text ++ trail.text), after.text) := by
  have hlast : (json.text ++ trail.text).getLast? ≠ some '`' := by
    intro h
    rw [List.getLast?_append, json.closes] at h
    cases htrail : trail.text.getLast? with
    | none =>
      rw [htrail] at h
      exact absurd h (by decide)
    | some c =>
      rw [htrail] at h
      cases h
      exact trail.not_mem_backtick (List.mem_of_getLast? htrail)
  have hfree : ¬ fence <:+: json.text ++ trail.text := by
    intro h
    rcases fence_infix_append (Or.inl (by rw [json.closes]; decide)) h with h | h
    · exact hno h
    · exact no_fence_within trail.not_mem_backtick h
  rw [show lead.text ++ json.text ++ trail.text ++ fence ++ after.text =
      lead.text ++ (json.text ++ trail.text ++ fence ++ after.text) by
    simp only [List.append_assoc],
    cut_append_left (c := '`') rfl lead.not_mem_backtick, cut_fence_append hfree hlast]
  rfl

/-- The object begins before its first fence. -/
theorem head_of_cut_fence {p : List Char × List Char} (hin : cut fence json.text = some p) :
    p.1.head? = some '{' := by
  have hopens := json.opens
  rw [cut_eq_some hin, List.append_assoc, List.head?_append] at hopens
  cases hp : p.1.head? with
  | some c =>
    rw [hp] at hopens
    exact hopens
  | none =>
    rw [hp, Option.none_or, List.head?_append] at hopens
    cases hopens

/-- The block in the fence is a part of the object, and all of it exactly if the object has
no fence in it. -/
theorem fenced_inFence :
    ∃ block, fenced "```json".toList (inFence before lead json trail after) = some block ∧
      block <:+: json.text ∧ (block = json.text ↔ ¬ fence <:+: json.text) := by
  have hopen : cut "```json".toList (inFence before lead json trail after) =
      some (before.text, lead.text ++ json.text ++ trail.text ++ fence ++ after.text) := by
    unfold inFence
    rw [List.append_assoc, cut_append_left (c := '`') rfl before.not_mem_backtick,
      List.append_assoc _ fence, List.append_assoc, cut_append_self]
    simp
  rw [fenced_eq_cut, hopen, Option.bind_some]
  cases hin : cut fence json.text with
  | some p =>
    have hjson : json.text = p.1 ++ fence ++ p.2 := cut_eq_some hin
    have hinfix : fence <:+: json.text := cut_isSome_iff.mp (by rw [hin]; rfl)
    refine ⟨trim (lead.text ++ p.1), by rw [cut_fence_early after lead trail json hin]; rfl, ?_, ?_,
      fun hno => absurd hinfix hno⟩
    · have hstart : trimStart (lead.text ++ p.1) = p.1 := by
        rw [trimStart_append ⟨'{', head_of_cut_fence json hin, by decide⟩,
          trimStart_eq_nil lead.blank, List.nil_append]
      refine List.IsInfix.trans ?_ (hjson ▸ ⟨[], fence ++ p.2, by simp⟩ : p.1 <:+: json.text)
      unfold trim
      rw [hstart]
      exact (List.reverse_reverse p.1 ▸
        List.reverse_prefix.mpr (List.dropWhile_suffix isWhitespace)).isInfix
    · -- what is left of the object has fewer backticks
      intro heq
      have htrim := count_trim_le '`' (lead.text ++ p.1)
      rw [heq, hjson] at htrim
      have hfence : List.count '`' fence = 3 := by decide
      simp only [List.count_append, lead.count, hfence] at htrim
      omega
  | none =>
    have hno : ¬ fence <:+: json.text := cut_eq_none_iff.mp hin
    refine ⟨json.text, ?_, List.infix_rfl, fun _ => hno, fun _ => rfl⟩
    rw [cut_fence_close after lead trail json hno, Option.map_some, ← List.append_assoc,
      trim_append json.bounded, trimStart_eq_nil lead.blank, trimEnd_eq_nil trail.blank]
    simp

end

end ZeptoPM.Text
