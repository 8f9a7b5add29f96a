import ZeptoPM.Text
import Mathlib.Data.List.TakeWhile

/- Where a delimiter occurs in a text. `cut` splits a text at the first occurrence of
   a pattern and `cutLast` at the last occurrence of a character; the positions a search
   returns and the slices between them are read off the pieces. The lemmas say which
   pieces a text falls into that is put together from known parts: a part without the
   first character of the pattern in front, a part with the pattern in it, a part behind. -/
namespace ZeptoPM.Text

/-- The text before and behind the first occurrence of `pat`. -/
def cut (pat : List Char) : List Char → Option (List Char × List Char)
  | [] => if pat.isEmpty then some ([], []) else none
  | c :: s =>
    if pat.isPrefixOf (c :: s) then some ([], (c :: s).drop pat.length)
    else (cut pat s).map (fun p => (c :: p.1, p.2))

/-- The text before and behind the last occurrence of `c`. -/
def cutLast (c : Char) : List Char → Option (List Char × List Char)
  | [] => none
  | x :: s =>
    match cutLast c s with
    | some p => some (x :: p.1, p.2)
    | none => if x = c then some ([], s) else none

section
variable {pat s t a b : List Char}

/-! ## The first occurrence -/

theorem cut_append_self (pat s : List Char) : cut pat (pat ++ s) = some ([], s) := by
  cases h : pat ++ s with
  | nil =>
    obtain ⟨hpat, hs⟩ := List.append_eq_nil_iff.mp h
    subst hpat
    subst hs
    rfl
  | cons c u =>
    have hpre : pat.isPrefixOf (c :: u) = true :=
      List.isPrefixOf_iff_prefix.mpr ⟨s, h⟩
    rw [cut, if_pos hpre, ← h, List.drop_left]

theorem cut_eq_some (h : cut pat s = some (a, b)) : s = a ++ pat ++ b := by
  induction s generalizing a b with
  | nil =>
    unfold cut at h
    split at h
    · rename_i hpat
      cases h
      simpa using hpat
    · cases h
  | cons c s ih =>
    unfold cut at h
    split at h
    · rename_i hpre
      cases h
      obtain ⟨t, ht⟩ := List.isPrefixOf_iff_prefix.mp hpre
      rw [← ht, List.drop_left]
      rfl
    · obtain ⟨p, hp, hab⟩ := Option.map_eq_some_iff.mp h
      cases hab
      rw [ih hp]
      rfl

/-- What lies behind the first occurrence reaches further back than behind any other. -/
theorem cut_of_append (pat a b : List Char) :
    ∃ a' m, cut pat (a ++ pat ++ b) = some (a', m ++ b) ∧ a' ++ pat ++ m = a ++ pat := by
  induction a with
  | nil => exact ⟨[], [], cut_append_self pat b, by simp⟩
  | cons c a ih =>
    obtain ⟨a', m, hcut, hm⟩ := ih
    by_cases hpre : pat.isPrefixOf (c :: (a ++ pat ++ b)) = true
    · -- an occurrence at the very front may overlap the one that is known
      have hpre' : pat <+: c :: (a ++ pat) := by
        refine List.prefix_of_prefix_length_le (List.isPrefixOf_iff_prefix.mp hpre)
          ⟨b, by simp⟩ ?_
        simp only [List.length_cons, List.length_append]
        omega
      obtain ⟨m', hm'⟩ := hpre'
      refine ⟨[], m', ?_, hm'⟩
      have hs : c :: a ++ pat ++ b = pat ++ (m' ++ b) := by
        rw [← List.append_assoc, hm']
        simp
      rw [hs, cut_append_self]
    · refine ⟨c :: a', m, ?_, by simpa using hm⟩
      show cut pat (c :: (a ++ pat ++ b)) = _
      rw [cut, if_neg hpre, hcut]
      rfl

theorem cut_isSome_iff : (cut pat s).isSome ↔ pat <:+: s := by
  refine ⟨?_, ?_⟩
  · intro h
    obtain ⟨p, hp⟩ := Option.isSome_iff_exists.mp h
    exact ⟨p.1, p.2, (cut_eq_some hp).symm⟩
  · intro h
    obtain ⟨a, b, rfl⟩ := h
    obtain ⟨a', m, hcut, _⟩ := cut_of_append pat a b
    rw [hcut]
    rfl

theorem cut_eq_none_iff : cut pat s = none ↔ ¬ pat <:+: s := by
  rw [← cut_isSome_iff, Option.not_isSome_iff_eq_none]

/-- A text in front that lacks the first character of the pattern is passed over. -/
theorem cut_append_left {c : Char} (hhead : pat.head? = some c) (ha : c ∉ a) (s : List Char) :
    cut pat (a ++ s) = (cut pat s).map (fun p => (a ++ p.1, p.2)) := by
  induction a with
  | nil => simp
  | cons x a ih =>
    have hx : ¬ pat.isPrefixOf (x :: (a ++ s)) = true := by
      intro hpre
      obtain ⟨t, ht⟩ := List.isPrefixOf_iff_prefix.mp hpre
      obtain ⟨rest, hrest⟩ := List.head?_eq_some_iff.mp hhead
      rw [hrest, List.cons_append, List.cons.injEq] at ht
      exact ha (ht.1 ▸ List.mem_cons_self)
    rw [List.cons_append, cut, if_neg hx, ih (fun h => ha (List.mem_cons_of_mem _ h)),
      Option.map_map]
    rfl

/-- Text behind an occurrence does not move it. -/
theorem cut_append_right (h : cut pat s = some (a, b)) (t : List Char) :
    cut pat (s ++ t) = some (a, b ++ t) := by
  induction s generalizing a b with
  | nil =>
    unfold cut at h
    split at h
    · rename_i hpat
      cases h
      rw [List.isEmpty_iff] at hpat
      subst hpat
      exact cut_append_self [] t
    · cases h
  | cons c s ih =>
    unfold cut at h
    split at h
    · rename_i hpre
      cases h
      obtain ⟨u, hu⟩ := List.isPrefixOf_iff_prefix.mp hpre
      rw [← hu, List.drop_left, List.append_assoc, cut_append_self]
    · rename_i hpre
      obtain ⟨p, hp, hab⟩ := Option.map_eq_some_iff.mp h
      cases hab
      have hpre' : ¬ pat.isPrefixOf (c :: (s ++ t)) = true := by
        intro hlong
        refine hpre (List.isPrefixOf_iff_prefix.mpr ?_)
        refine List.prefix_of_prefix_length_le (List.isPrefixOf_iff_prefix.mp hlong)
          ⟨t, rfl⟩ ?_
        have hlen := congrArg List.length (cut_eq_some hp)
        simp only [List.length_append] at hlen
        simp only [List.length_cons]
        omega
      rw [List.cons_append, cut, if_neg hpre', ih hp]
      rfl

/-! ## The last occurrence -/

theorem cutLast_eq_none_iff {c : Char} : cutLast c s = none ↔ c ∉ s := by
  induction s with
  | nil => simp [cutLast]
  | cons x s ih =>
    unfold cutLast
    cases h : cutLast c s with
    | some p =>
      have hmem : c ∈ s := by
        by_contra hno
        rw [ih.mpr hno] at h
        cases h
      simp [hmem]
    | none =>
      have hno := ih.mp h
      by_cases hx : x = c
      · simp [hx]
      · simp [hx, hno, Ne.symm hx]

theorem cutLast_eq_some_iff {c : Char} :
    cutLast c s = some (a, b) ↔ s = a ++ c :: b ∧ c ∉ b := by
  induction s generalizing a b with
  | nil => simp [cutLast]
  | cons x s ih =>
    unfold cutLast
    cases h : cutLast c s with
    | some p =>
      obtain ⟨hs, hb⟩ := ih.mp (show cutLast c s = some (p.1, p.2) from h)
      simp only [Option.some.injEq, Prod.mk.injEq]
      refine ⟨?_, ?_⟩
      · intro hab
        obtain ⟨ha, hb'⟩ := hab
        subst ha
        subst hb'
        exact ⟨by rw [hs]; rfl, hb⟩
      · intro hab
        obtain ⟨hxs, hb'⟩ := hab
        cases a with
        | nil =>
          obtain ⟨_, hsb⟩ := List.cons.inj hxs
          rw [← hsb, hs] at hb'
          exact absurd (by simp) hb'
        | cons y a =>
          obtain ⟨hxy, hsa⟩ := List.cons.inj hxs
          have hp := ih.mpr ⟨hsa, hb'⟩
          rw [h] at hp
          cases hp
          exact ⟨by rw [hxy], rfl⟩
    | none =>
      have hno := cutLast_eq_none_iff.mp h
      dsimp only
      refine ⟨?_, ?_⟩
      · intro hif
        by_cases hx : x = c
        · rw [if_pos hx] at hif
          cases hif
          exact ⟨by rw [hx]; rfl, hno⟩
        · rw [if_neg hx] at hif
          cases hif
      · intro hab
        obtain ⟨hxs, hb⟩ := hab
        cases a with
        | nil =>
          obtain ⟨hx, hsb⟩ := List.cons.inj hxs
          rw [if_pos hx, hsb]
        | cons y a =>
          obtain ⟨_, hsa⟩ := List.cons.inj hxs
          rw [hsa] at hno
          exact absurd (by simp) hno

/-! ## Positions -/

theorem find_eq_cut (pat s : List Char) : find pat s = (cut pat s).map (·.1.length) := by
  induction s with
  | nil =>
    unfold find cut
    split <;> rfl
  | cons c s ih =>
    unfold find cut
    split
    · rfl
    · rw [ih, Option.map_map, Option.map_map]
      rfl

theorem cut_singleton_eq_some_iff {c : Char} :
    cut [c] s = some (a, b) ↔ s = a ++ c :: b ∧ c ∉ a := by
  refine ⟨?_, ?_⟩
  · intro h
    refine ⟨by simpa using cut_eq_some h, ?_⟩
    intro hmem
    obtain ⟨x, y, hxy⟩ := List.append_of_mem hmem
    have hs : s = x ++ [c] ++ (y ++ c :: b) := by
      rw [cut_eq_some h, hxy]
      simp
    obtain ⟨a', m, hcut, hm⟩ := cut_of_append [c] x (y ++ c :: b)
    rw [← hs, h, Option.some.injEq, Prod.mk.injEq] at hcut
    have hlen := congrArg List.length hm
    rw [← hcut.1, hxy] at hlen
    simp only [List.length_append, List.length_cons, List.length_nil] at hlen
    omega
  · intro h
    obtain ⟨hs, ha⟩ := h
    rw [hs, cut_append_left rfl ha, show c :: b = [c] ++ b from rfl, cut_append_self]
    simp

theorem cutLast_eq_reverse (c : Char) (s : List Char) :
    cutLast c s = (cut [c] s.reverse).map (fun p => (p.2.reverse, p.1.reverse)) := by
  cases h : cut [c] s.reverse with
  | none =>
    have hno : c ∉ s := by
      intro hmem
      refine cut_eq_none_iff.mp h ?_
      obtain ⟨x, y, hxy⟩ := List.append_of_mem (List.mem_reverse.mpr hmem)
      exact ⟨x, y, by rw [hxy]; simp⟩
    exact cutLast_eq_none_iff.mpr hno
  | some p =>
    obtain ⟨hs, hno⟩ :=
      cut_singleton_eq_some_iff.mp (show cut [c] s.reverse = some (p.1, p.2) from h)
    refine cutLast_eq_some_iff.mpr ⟨?_, by simpa using hno⟩
    rw [← List.reverse_reverse s, hs]
    simp

theorem rfindChar_eq_cutLast (c : Char) (s : List Char) :
    rfindChar c s = (cutLast c s).map (·.1.length) := by
  unfold rfindChar
  rw [find_eq_cut, cutLast_eq_reverse, Option.map_map, Option.map_map]
  cases h : cut [c] s.reverse with
  | none => rfl
  | some p =>
    have hs := congrArg List.length (cut_eq_some (show cut [c] s.reverse = some (p.1, p.2) from h))
    simp only [List.length_reverse, List.length_append, List.length_cons, List.length_nil] at hs
    simp only [Option.map_some, Function.comp_apply, List.length_reverse, Option.some.injEq]
    omega

/-! ## Trimming -/

/-- The ends of a text are what trimming keeps. -/
def Bounded (s : List Char) : Prop :=
  (∃ c ∈ s.head?, isWhitespace c = false) ∧ ∃ c ∈ s.getLast?, isWhitespace c = false

theorem trimStart_append (ha : ∃ c ∈ s.head?, isWhitespace c = false) (a : List Char) :
    trimStart (a ++ s) = trimStart a ++ s := by
  obtain ⟨c, hc, hws⟩ := ha
  obtain ⟨rest, hs⟩ := List.head?_eq_some_iff.mp hc
  unfold trimStart
  rw [List.dropWhile_append]
  split
  · rename_i hempty
    rw [List.isEmpty_iff.mp hempty, hs, List.dropWhile_cons_of_neg (by simp [hws])]
    rfl
  · rfl

theorem trimEnd_append (hs : ∃ c ∈ s.getLast?, isWhitespace c = false) (b : List Char) :
    trimEnd (s ++ b) = s ++ trimEnd b := by
  have hhead : ∃ c ∈ s.reverse.head?, isWhitespace c = false := by
    rw [List.head?_reverse]
    exact hs
  show (trimStart (s ++ b).reverse).reverse = _
  rw [List.reverse_append, trimStart_append hhead, List.reverse_append, List.reverse_reverse]
  rfl

/-- Trimming stops at a part whose ends it keeps. -/
theorem trim_append (hs : Bounded s) (a b : List Char) :
    trim (a ++ s ++ b) = trimStart a ++ s ++ trimEnd b := by
  have hhead : ∃ c ∈ (s ++ b).head?, isWhitespace c = false := by
    obtain ⟨c, hc, hws⟩ := hs.1
    exact ⟨c, by rw [List.head?_append, Option.mem_def.mp hc]; rfl, hws⟩
  have hlast : ∃ c ∈ (trimStart a ++ s).getLast?, isWhitespace c = false := by
    obtain ⟨c, hc, hws⟩ := hs.2
    exact ⟨c, by rw [List.getLast?_append, Option.mem_def.mp hc]; rfl, hws⟩
  unfold trim
  rw [List.append_assoc, trimStart_append hhead, ← List.append_assoc, trimEnd_append hlast]

theorem trimStart_eq_nil (ha : ∀ c ∈ a, isWhitespace c = true) : trimStart a = [] := by
  unfold trimStart
  exact List.dropWhile_eq_nil_iff.mpr ha

theorem trimEnd_eq_nil (ha : ∀ c ∈ a, isWhitespace c = true) : trimEnd a = [] := by
  show (trimStart a.reverse).reverse = []
  rw [trimStart_eq_nil (by simpa using ha), List.reverse_nil]

/-- What trimming removes is whitespace on both sides. -/
theorem exists_trim (s : List Char) :
    ∃ l r, s = l ++ trim s ++ r ∧ (∀ c ∈ l, isWhitespace c = true) ∧
      ∀ c ∈ r, isWhitespace c = true := by
  have hstart : s = s.takeWhile isWhitespace ++ trimStart s := List.takeWhile_append_dropWhile.symm
  have hend : trimStart s = trim s ++ ((trimStart s).reverse.takeWhile isWhitespace).reverse := by
    have h := congrArg List.reverse
      (List.takeWhile_append_dropWhile (p := isWhitespace) (l := (trimStart s).reverse))
    rw [List.reverse_append, List.reverse_reverse] at h
    exact h.symm
  refine ⟨s.takeWhile isWhitespace, ((trimStart s).reverse.takeWhile isWhitespace).reverse,
    ?_, fun c hc => List.mem_takeWhile_imp hc, ?_⟩
  · rw [List.append_assoc, ← hend]
    exact hstart
  · intro c hc
    exact List.mem_takeWhile_imp (List.mem_reverse.mp hc)

end

end ZeptoPM.Text
