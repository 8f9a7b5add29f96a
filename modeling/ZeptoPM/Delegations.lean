import ZeptoPM.Utf8

/- The markers by which a manager hands work to other agents. `parseDelegations` reads
   them line by line, with every range written out in bytes; the ranges are sound on
   every text (`parseDelegation_eq`), and what a line stands for depends only on what
   trimming leaves of it. So lines that are joined are read back one by one, whatever
   they are indented by and whatever stands between them (`parse_intercalate`). -/
namespace ZeptoPM
open Text

/-! ## Lines -/

/-- A line without the carriage return in front of its newline. -/
def Text.chomp (line : List Char) : List Char :=
  if line.getLast? = some '\r' then line.dropLast else line

/-- `text.lines()`: what stands between newlines; the last piece counts only if there is
something in it, and only the others end in a newline. -/
def Text.lines (s : List Char) : List (List Char) :=
  let pieces := s.splitOn '\n'
  pieces.dropLast.map chomp ++ pieces.getLast?.toList.filter (fun line => !line.isEmpty)

/-- `s.strip_prefix(pat)`. -/
def Text.stripHead (pat s : List Char) : Option (List Char) :=
  if pat.isPrefixOf s then some (s.drop pat.length) else none

/-! ## Markers -/

abbrev delegateMark : List Char := "@delegate(".toList

/-- The marker of one line, if it has one; the outer `none` is an abort on one of the
slices. -/
def parseDelegation (line : List Char) : Option (Option (String × String)) :=
  let trimmed := trim line
  match stripHead delegateMark trimmed with
  | none => some none
  | some rest =>
    match Utf8.find [')'] rest with
    | none => some none
    | some parenEnd => do
      let agentName ← Utf8.sliceTo rest parenEnd
      let tail ← Utf8.sliceFrom rest (parenEnd + 1)
      let message := trim (tail.dropWhile (· == ':'))
      if !agentName.isEmpty && !message.isEmpty then
        pure (some (.ofList agentName, .ofList message))
      else pure none

def parseDelegationLines : List (List Char) → Option (List (String × String))
  | [] => some []
  | line :: rest => do
    let delegation ← parseDelegation line
    let delegations ← parseDelegationLines rest
    pure (delegation.toList ++ delegations)

/-- Parse `@delegate(agent_name): message` markers from LLM response. -/
def parseDelegations (text : String) : Option (List (String × String)) :=
  parseDelegationLines (lines text.toList)

/-! ## What a line stands for -/

/-- What a trimmed line stands for, by the pieces it falls into. -/
def delegationOf (trimmed : List Char) : Option (String × String) :=
  match stripHead delegateMark trimmed with
  | none => none
  | some rest =>
    match cut [')'] rest with
    | none => none
    | some (agentName, tail) =>
      let message := trim (tail.dropWhile (· == ':'))
      if !agentName.isEmpty && !message.isEmpty then
        some (.ofList agentName, .ofList message)
      else none

/-- Both slices are sound on every line. -/
theorem parseDelegation_eq (line : List Char) :
    parseDelegation line = some (delegationOf (trim line)) := by
  unfold parseDelegation delegationOf
  dsimp only
  cases stripHead delegateMark (trim line) with
  | none => rfl
  | some rest =>
    dsimp only
    rw [Utf8.find_eq_cut]
    cases hcut : cut [')'] rest with
    | none => rfl
    | some p =>
      have hrest := cut_eq_some (show cut [')'] rest = some (p.1, p.2) from hcut)
      have hto : Utf8.sliceTo rest (Utf8.byteLen p.1) = some p.1 := by
        rw [hrest, List.append_assoc, Utf8.sliceTo_append]
      have hfrom : Utf8.sliceFrom rest (Utf8.byteLen p.1 + 1) = some p.2 := by
        have hparen : Utf8.byteLen p.1 + 1 = Utf8.byteLen (p.1 ++ [')']) := by
          rw [Utf8.byteLen_append]
          rfl
        rw [hparen, hrest, Utf8.sliceFrom_append]
      simp only [Option.map_some, hto, hfrom, Option.bind_eq_bind, Option.bind_some]
      split <;> rfl

theorem parseDelegationLines_eq (ls : List (List Char)) :
    parseDelegationLines ls = some (ls.filterMap (fun line => delegationOf (trim line))) := by
  induction ls with
  | nil => rfl
  | cons line ls ih =>
    unfold parseDelegationLines
    rw [parseDelegation_eq, ih, List.filterMap_cons]
    cases delegationOf (trim line) <;> rfl

theorem delegationOf_eq_some {trimmed : List Char} {d : String × String}
    (h : delegationOf trimmed = some d) : ∃ name rest,
      trimmed = delegateMark ++ name ++ [')'] ++ rest ∧ ')' ∉ name ∧ name ≠ [] ∧
      d.1 = .ofList name ∧ d.2 = .ofList (trim (rest.dropWhile (· == ':'))) ∧
      trim (rest.dropWhile (· == ':')) ≠ [] := by
  unfold delegationOf stripHead at h
  split at h
  · cases h
  · rename_i rest hstrip
    split at hstrip
    · rename_i hpre
      cases hstrip
      obtain ⟨t, ht⟩ := List.isPrefixOf_iff_prefix.mp hpre
      rw [← ht, List.drop_left] at h
      split at h
      · cases h
      · rename_i name tail hcut
        obtain ⟨hsplit, hname⟩ := cut_singleton_eq_some_iff.mp hcut
        dsimp only at h
        split at h
        · rename_i hne
          simp only [Bool.and_eq_true, Bool.not_eq_true', List.isEmpty_eq_false_iff] at hne
          cases h
          refine ⟨name, tail, ?_, hname, hne.1, rfl, rfl, hne.2⟩
          rw [← ht, hsplit]
          simp
        · cases h
    · cases hstrip

/-- A marker with a name and a message reads as both. -/
theorem delegationOf_marker {name message : List Char} (hne : name ≠ []) (hparen : ')' ∉ name)
    (hmessage : message ≠ []) (htrim : trim message = message) :
    delegationOf (delegateMark ++ name ++ "): ".toList ++ message) =
      some (.ofList name, .ofList message) := by
  have hstrip : stripHead delegateMark (delegateMark ++ name ++ "): ".toList ++ message) =
      some (name ++ ')' :: ([':', ' '] ++ message)) := by
    unfold stripHead
    rw [List.append_assoc, List.append_assoc,
      if_pos (List.isPrefixOf_iff_prefix.mpr ⟨_, rfl⟩), List.drop_left]
    simp
  have hcut : cut [')'] (name ++ ')' :: ([':', ' '] ++ message)) =
      some (name, [':', ' '] ++ message) := cut_singleton_eq_some_iff.mpr ⟨rfl, hparen⟩
  have hcolon : ([':', ' '] ++ message).dropWhile (· == ':') = ' ' :: message := rfl
  have hspace : trim (' ' :: message) = message := htrim
  unfold delegationOf
  rw [hstrip]
  dsimp only
  rw [hcut]
  dsimp only
  rw [hcolon, hspace, if_pos]
  simp [hne, hmessage]

/-- A line that does not begin with the mark stands for nothing. -/
theorem delegationOf_other {trimmed : List Char} (h : ¬ delegateMark <+: trimmed) :
    delegationOf trimmed = none := by
  unfold delegationOf stripHead
  rw [if_neg (fun hpre => h (List.isPrefixOf_iff_prefix.mp hpre))]

/-! ## What a text stands for -/

/-- Whitespace behind a text is trimmed away. -/
theorem trim_append_blank {b : List Char} (hb : ∀ c ∈ b, isWhitespace c = true)
    (a : List Char) : trim (a ++ b) = trim a := by
  have hend : ∀ x : List Char, trimEnd (x ++ b) = trimEnd x := by
    intro x
    show (trimStart (x ++ b).reverse).reverse = (trimStart x.reverse).reverse
    unfold trimStart
    rw [List.reverse_append, List.dropWhile_append, List.isEmpty_iff.mpr, if_pos rfl]
    exact trimStart_eq_nil (by simpa using hb)
  unfold trim
  rw [show trimStart (a ++ b) = (a ++ b).dropWhile isWhitespace from rfl, List.dropWhile_append]
  split
  · rename_i hempty
    rw [show trimStart a = [] from List.isEmpty_iff.mp hempty,
      show b.dropWhile isWhitespace = [] from trimStart_eq_nil hb]
  · exact hend _

/-- What trimming leaves of a text, if it leaves anything, begins and ends with a character it
keeps. -/
theorem bounded_trim {s : List Char} (hne : trim s ≠ []) : Bounded (trim s) := by
  have hfirst := List.head?_dropWhile_not isWhitespace s
  have hlast := List.head?_dropWhile_not isWhitespace (trimStart s).reverse
  have htrim : trim s = ((trimStart s).reverse.dropWhile isWhitespace).reverse := rfl
  refine ⟨?_, ?_⟩
  · have hpre : trim s <+: trimStart s := by
      rw [htrim, ← List.reverse_suffix, List.reverse_reverse]
      exact List.dropWhile_suffix _
    obtain ⟨c, rest, hs⟩ := List.exists_cons_of_ne_nil hne
    obtain ⟨t, ht⟩ := hpre
    rw [show s.dropWhile isWhitespace = trimStart s from rfl, ← ht, hs] at hfirst
    exact ⟨c, by rw [hs]; rfl, hfirst⟩
  · rw [← List.getLast?_reverse, ← htrim, List.getLast?_eq_some_getLast hne] at hlast
    exact ⟨(trim s).getLast hne, List.getLast?_eq_some_getLast hne, hlast⟩

theorem trim_trim (s : List Char) : trim (trim s) = trim s := by
  by_cases hne : trim s = []
  · rw [hne]
    rfl
  · have h := trim_append (bounded_trim hne) [] []
    rw [List.nil_append, List.append_nil] at h
    rw [h, trimStart_eq_nil (by simp), trimEnd_eq_nil (by simp), List.nil_append, List.append_nil]

theorem trim_chomp (line : List Char) : trim (chomp line) = trim line := by
  unfold chomp
  split
  · rename_i hcr
    have hline := List.dropLast_append_getLast? '\r' hcr
    conv => rhs; rw [← hline]
    exact (trim_append_blank (by simp [isWhitespace]) _).symm
  · rfl

/-- A text stands for what its pieces between newlines stand for. -/
theorem parseDelegations_eq (text : String) : parseDelegations text =
    some ((text.toList.splitOn '\n').filterMap (fun line => delegationOf (trim line))) := by
  unfold parseDelegations
  rw [parseDelegationLines_eq]
  unfold lines
  dsimp only
  have hne : text.toList.splitOn '\n' ≠ [] := List.splitOn_ne_nil '\n' _
  generalize text.toList.splitOn '\n' = pieces at hne ⊢
  conv => rhs; rw [← List.dropLast_append_getLast hne]
  rw [List.filterMap_append, List.filterMap_append, List.filterMap_map,
    List.getLast?_eq_some_getLast hne]
  congr 2
  · refine List.filterMap_congr ?_
    intro line _
    exact congrArg delegationOf (trim_chomp line)
  · cases hlast : pieces.getLast hne with
    | nil => rfl
    | cons c line => rfl

/-- Lines that are joined are read one by one. -/
theorem parse_intercalate {ls : List (List Char)} (hls : ∀ line ∈ ls, '\n' ∉ line) :
    parseDelegations (.ofList (['\n'].intercalate ls)) =
      some (ls.filterMap (fun line => delegationOf (trim line))) := by
  rw [parseDelegations_eq, String.toList_ofList]
  cases ls with
  | nil => rfl
  | cons line ls => rw [List.splitOn_intercalate '\n' hls (by simp)]

/-! ## Rendering -/

/-- A marker on a line of its own, with whitespace around it. -/
structure MarkerLine where
  indent : List Char
  name : List Char
  message : List Char
  trailing : List Char
  indent_blank : ∀ c ∈ indent, isWhitespace c = true ∧ c ≠ '\n'
  name_ne : name ≠ []
  name_chars : ∀ c ∈ name, c ≠ ')' ∧ c ≠ '\n'
  message_ne : message ≠ []
  message_trim : trim message = message
  message_line : '\n' ∉ message
  trailing_blank : ∀ c ∈ trailing, isWhitespace c = true ∧ c ≠ '\n'

/-- A line that is no marker. -/
structure OtherLine where
  text : List Char
  one_line : '\n' ∉ text
  no_marker : ¬ delegateMark <+: trim text

/-- The lines of a manager's response. -/
inductive ResponseLine where
  | marker (m : MarkerLine)
  | other (o : OtherLine)

namespace ResponseLine

def render : ResponseLine → List Char
  | .marker m => m.indent ++ (delegateMark ++ m.name ++ "): ".toList ++ m.message) ++ m.trailing
  | .other o => o.text

def delegation : ResponseLine → Option (String × String)
  | .marker m => some (.ofList m.name, .ofList m.message)
  | .other _ => none

theorem newline_notMem_render (line : ResponseLine) : '\n' ∉ line.render := by
  cases line with
  | marker m =>
    intro h
    simp only [render, List.mem_append] at h
    rcases h with (hin | ((hmark | hname) | hparen) | hmsg) | htrail
    · exact (m.indent_blank _ hin).2 rfl
    · exact absurd hmark (by decide)
    · exact (m.name_chars _ hname).2 rfl
    · exact absurd hparen (by decide)
    · exact m.message_line hmsg
    · exact (m.trailing_blank _ htrail).2 rfl
  | other o => exact o.one_line

/-- A rendered line reads as the pair it was rendered from. -/
theorem delegationOf_render (line : ResponseLine) :
    delegationOf (trim line.render) = line.delegation := by
  cases line with
  | marker m =>
    have hbounded : Bounded (delegateMark ++ m.name ++ "): ".toList ++ m.message) := by
      refine ⟨⟨'@', rfl, by decide⟩, ?_⟩
      have hm : Bounded m.message := by
        rw [← m.message_trim]
        refine bounded_trim ?_
        rw [m.message_trim]
        exact m.message_ne
      obtain ⟨c, hc, hws⟩ := hm.2
      refine ⟨c, ?_, hws⟩
      rw [List.getLast?_append, Option.mem_def.mp hc]
      rfl
    show delegationOf (trim (m.indent ++ _ ++ m.trailing)) = _
    rw [trim_append hbounded, trimStart_eq_nil (fun c hc => (m.indent_blank c hc).1),
      trimEnd_eq_nil (fun c hc => (m.trailing_blank c hc).1), List.nil_append, List.append_nil]
    exact delegationOf_marker m.name_ne (fun h => (m.name_chars _ h).1 rfl) m.message_ne
      m.message_trim
  | other o => exact delegationOf_other o.no_marker

end ResponseLine

/-- Rendered lines are read back in their order, and on every text each pair read has a name
and a trimmed message, neither of them empty, from the marker of one of the lines. -/
theorem parseDelegations_render :
    (∀ ls : List ResponseLine,
      parseDelegations (.ofList (['\n'].intercalate (ls.map ResponseLine.render))) =
        some (ls.filterMap ResponseLine.delegation)) ∧
    ∀ text, ∃ delegations, parseDelegations text = some delegations ∧
      ∀ d ∈ delegations, d.1 ≠ "" ∧ d.2 ≠ "" ∧ trim d.2.toList = d.2.toList ∧
        ∃ line ∈ lines text.toList, ∃ rest, ')' ∉ d.1.toList ∧
          trim line = delegateMark ++ d.1.toList ++ [')'] ++ rest ∧
          d.2.toList = trim (rest.dropWhile (· == ':')) := by
  refine ⟨?_, ?_⟩
  · intro ls
    rw [parse_intercalate, List.filterMap_map]
    · refine congrArg some (List.filterMap_congr ?_)
      intro line _
      exact line.delegationOf_render
    · intro l hl
      obtain ⟨line, _, rfl⟩ := List.mem_map.mp hl
      exact line.newline_notMem_render
  · intro text
    refine ⟨_, parseDelegationLines_eq _, ?_⟩
    intro d hd
    obtain ⟨line, hline, hof⟩ := List.mem_filterMap.mp hd
    obtain ⟨name, rest, hsplit, hparen, hname, h₁, h₂, hmessage⟩ := delegationOf_eq_some hof
    rw [h₁, h₂]
    simp only [String.toList_ofList]
    refine ⟨?_, ?_, trim_trim _, line, hline, rest, hparen, hsplit, rfl⟩
    · intro hempty
      exact hname (String.ofList_eq_empty_iff.mp hempty)
    · intro hempty
      exact hmessage (String.ofList_eq_empty_iff.mp hempty)

/-- Two markers in prose, one with a message that holds what looks like another. -/
example : parseDelegations
    "Plan:\n  @delegate(coder): fix a(b): now\n\n@delegate(qa):: run @delegate(x): y\r\nDone" =
      some [("coder", "fix a(b): now"), ("qa", "run @delegate(x): y")] := by
  decide +kernel

end ZeptoPM
