import Mathlib.Data.List.DropRight

/- Unix paths as texts: the components a text has, joining two texts and taking a
   base off the front of one, and what a list of components comes to once `.` and
   `..` are removed without looking at any file system. `components_join` and
   `components_stripPrefix` say what the operations on texts do to components;
   `Lexical.foldl_enter` reduces going down a relative path from any directory to
   the normal form of that path alone. -/
namespace ZeptoPM

/-- What stands between two slashes. -/
abbrev Segment := List Char

inductive Component where
  | rootDir | curDir | parentDir
  | normal (name : Segment)
  deriving DecidableEq

/-- The component a segment is; an empty one and `.` are none. -/
def Segment.component (s : Segment) : Option Component :=
  if s = [] ∨ s = ['.'] then none
  else if s = ['.', '.'] then some .parentDir else some (.normal s)

def segments (text : List Char) : List Segment := text.splitOn '/'

/-- The components of a text behind the beginning of a path. -/
def body (text : List Char) : List Component := (segments text).filterMap Segment.component

/-- The text without the slash it begins with. -/
def unrooted : List Char → List Char
  | '/' :: text => text
  | text => text

/-- How a path begins: at the root, or with a `.`, which counts only there. -/
def anchor (text : List Char) : List Component :=
  if text.head? = some '/' then [.rootDir]
  else if (segments text).head? = some ['.'] then [.curDir] else []

def components (text : List Char) : List Component := anchor text ++ body (unrooted text)

/-- An absolute right-hand side replaces the left. -/
def joinText (base other : List Char) : List Char :=
  if other.head? = some '/' then other
  else if base = [] ∨ base.getLast? = some '/' then base ++ other
  else base ++ '/' :: other

/-- The segments behind the first `n` components. -/
def dropComponents : Nat → List Segment → List Segment
  | 0, segs => segs
  | _ + 1, [] => []
  | n + 1, s :: segs => if s.component = none then dropComponents (n + 1) segs
    else dropComponents n segs

/-- The segments without those at either end that are no component. -/
def trimSegments (segs : List Segment) : List Segment :=
  (segs.dropWhile (·.component.isNone)).rdropWhile (·.component.isNone)

/-- The rest of a path that begins with the components of a base that has any. -/
def stripPrefix (text base : List Char) : Option (List Char) :=
  if components base <+: components text then
    some (['/'].intercalate
      (trimSegments (dropComponents (body (unrooted base)).length (segments (unrooted text)))))
  else none

section
variable {text base other : List Char} {segs : List Segment}

theorem segments_append_slash (a b : List Char) :
    segments (a ++ '/' :: b) = segments a ++ segments b := List.splitOn_append_cons_self a b

@[simp] theorem body_nil : body [] = [] := rfl

theorem body_append_slash (a b : List Char) : body (a ++ '/' :: b) = body a ++ body b := by
  unfold body
  rw [segments_append_slash, List.filterMap_append]

/-- A trailing slash adds no component. -/
theorem body_append_trailing (a : List Char) : body (a ++ ['/']) = body a := by
  rw [body_append_slash, body_nil, List.append_nil]

theorem unrooted_of_not_head? (h : text.head? ≠ some '/') : unrooted text = text := by
  unfold unrooted
  split
  · exact absurd rfl h
  · rfl

theorem slash_notMem_segments {s : Segment} (hs : s ∈ segments text) : '/' ∉ s := by
  induction text generalizing s with
  | nil =>
    rw [show segments [] = [[]] from rfl, List.mem_singleton] at hs
    simp [hs]
  | cons c text ih =>
    unfold segments at hs ih
    rw [List.splitOn_cons_eq_if_modifyHead] at hs
    split at hs
    · rcases List.mem_cons.mp hs with rfl | hmem
      · exact List.not_mem_nil
      · exact ih hmem
    · rename_i hc
      cases hsplit : List.splitOn '/' text with
      | nil => exact absurd hsplit (List.splitOn_ne_nil '/' text)
      | cons s₀ segs =>
        rw [hsplit] at hs ih
        rcases List.mem_cons.mp hs with rfl | hmem
        · intro h
          rcases List.mem_cons.mp h with rfl | hin
          · simp at hc
          · exact ih List.mem_cons_self hin
        · exact ih (List.mem_cons_of_mem _ hmem)

/-! ## Join -/

theorem anchor_append_slash (front other : List Char) :
    anchor (front ++ '/' :: other) = anchor (front ++ ['/']) := by
  cases front with
  | nil => rfl
  | cons c front =>
    unfold anchor
    rw [segments_append_slash, segments_append_slash, List.cons_append, List.head?_cons,
      List.cons_append, List.head?_cons]
    cases hs : segments (c :: front) with
    | nil => exact absurd hs (List.splitOn_ne_nil '/' _)
    | cons s segs => rfl

theorem unrooted_append_slash (c : Char) (front other : List Char) :
    unrooted (c :: front ++ '/' :: other) = unrooted (c :: front) ++ '/' :: other := by
  by_cases hc : c = '/'
  · subst hc
    rfl
  · have hne : ∀ l : List Char, (c :: l).head? ≠ some '/' := fun l => by simpa using hc
    rw [List.cons_append, unrooted_of_not_head? (hne _), unrooted_of_not_head? (hne _),
      List.cons_append]

/-- Behind a slash every text goes on with its body. -/
theorem components_append_slash (front other : List Char) :
    components (front ++ '/' :: other) = components (front ++ ['/']) ++ body other := by
  unfold components
  rw [anchor_append_slash, List.append_assoc]
  congr 1
  cases front with
  | nil => rfl
  | cons c front =>
    rw [unrooted_append_slash, unrooted_append_slash, body_append_slash, body_append_trailing]

/-- A trailing slash adds no component. -/
theorem components_append_trailing {front : List Char} (h : front ≠ []) :
    components (front ++ ['/']) = components front := by
  obtain ⟨c, front, rfl⟩ := List.exists_cons_of_ne_nil h
  unfold components
  rw [unrooted_append_slash, body_append_trailing]
  congr 1
  unfold anchor
  rw [segments_append_slash, List.cons_append, List.head?_cons, List.head?_cons]
  cases hs : segments (c :: front) with
  | nil => exact absurd hs (List.splitOn_ne_nil '/' _)
  | cons s segs => rfl

/-- What is joined to a base goes on with its body. -/
theorem components_join (hbase : base ≠ []) (hother : other.head? ≠ some '/') :
    components (joinText base other) = components base ++ body other := by
  unfold joinText
  rw [if_neg hother]
  by_cases hslash : base.getLast? = some '/'
  · obtain ⟨front, rfl⟩ := List.getLast?_eq_some_iff.mp hslash
    rw [if_pos (Or.inr hslash), List.append_assoc]
    exact components_append_slash front other
  · rw [if_neg (not_or.mpr ⟨hbase, hslash⟩), components_append_slash,
      components_append_trailing hbase]

theorem joinText_nil (hother : other.head? ≠ some '/') : joinText [] other = other := by
  unfold joinText
  rw [if_neg hother, if_pos (Or.inl rfl), List.nil_append]

/-- The components of a path without a `.` at its beginning. -/
def steps (text : List Char) : List Component := (components text).filter (· ≠ .curDir)

theorem component_of_mem_body {c : Component} (h : c ∈ body text) :
    c ≠ .rootDir ∧ c ≠ .curDir := by
  obtain ⟨s, _, hs⟩ := List.mem_filterMap.mp h
  unfold Segment.component at hs
  split at hs
  · cases hs
  · split at hs <;> cases hs <;> exact ⟨Component.noConfusion, Component.noConfusion⟩

theorem filter_body (text : List Char) : (body text).filter (· ≠ .curDir) = body text := by
  rw [List.filter_eq_self]
  intro c hc
  simpa using (component_of_mem_body hc).2

theorem steps_of_relative (h : text.head? ≠ some '/') : steps text = body text := by
  unfold steps components anchor
  rw [if_neg h, unrooted_of_not_head? h, List.filter_append, filter_body]
  split <;> rfl

theorem steps_join (base : List Char) (hother : other.head? ≠ some '/') :
    steps (joinText base other) = steps base ++ body other := by
  by_cases hbase : base = []
  · rw [hbase, joinText_nil hother, steps_of_relative hother]
    rfl
  · unfold steps
    rw [components_join hbase hother, List.filter_append, filter_body]

/-! ## Taking a base off -/

theorem filterMap_dropComponents (n : Nat) (segs : List Segment) :
    (dropComponents n segs).filterMap Segment.component =
      (segs.filterMap Segment.component).drop n := by
  fun_induction dropComponents n segs with
  | case1 segs => rfl
  | case2 n => simp
  | case3 n s segs hs ih => rw [ih, List.filterMap_cons_none hs]
  | case4 n s segs hs ih =>
    obtain ⟨c, hc⟩ := Option.ne_none_iff_exists'.mp hs
    rw [ih, List.filterMap_cons_some hc, List.drop_succ_cons]

theorem filterMap_dropWhile (segs : List Segment) :
    (segs.dropWhile (·.component.isNone)).filterMap Segment.component =
      segs.filterMap Segment.component := by
  induction segs with
  | nil => rfl
  | cons s segs ih =>
    cases hs : s.component with
    | none => rw [List.dropWhile_cons_of_pos (by simp [hs]), ih, List.filterMap_cons_none hs]
    | some c => rw [List.dropWhile_cons_of_neg (by simp [hs])]

theorem filterMap_trimSegments (segs : List Segment) :
    (trimSegments segs).filterMap Segment.component = segs.filterMap Segment.component := by
  unfold trimSegments List.rdropWhile
  have hback : ∀ l : List Segment,
      ((l.reverse.dropWhile (·.component.isNone)).reverse).filterMap Segment.component =
        l.filterMap Segment.component := by
    intro l
    rw [List.filterMap_reverse, filterMap_dropWhile, List.filterMap_reverse, List.reverse_reverse]
  rw [hback, filterMap_dropWhile]

/-- The segments that are left are segments of the text. -/
theorem mem_of_mem_dropComponents {s : Segment} {n : Nat}
    (h : s ∈ dropComponents n segs) : s ∈ segs := by
  fun_induction dropComponents n segs with
  | case1 segs => exact h
  | case2 n => exact h
  | case3 n s' segs hs ih => exact List.mem_cons_of_mem _ (ih h)
  | case4 n s' segs hs ih => exact List.mem_cons_of_mem _ (ih h)

theorem mem_of_mem_trimSegments {s : Segment} (h : s ∈ trimSegments segs) : s ∈ segs :=
  (List.dropWhile_sublist _).subset ((List.rdropWhile_prefix _ _).subset h)

/-- What is left begins with a component, if there is anything left. -/
theorem component_of_trimSegments {s : Segment} {rest : List Segment}
    (h : trimSegments segs = s :: rest) : s.component.isSome = true := by
  unfold trimSegments at h
  have hpre := List.rdropWhile_prefix (·.component.isNone)
    (segs.dropWhile (·.component.isNone))
  rw [h] at hpre
  obtain ⟨t, ht⟩ := hpre
  have hhead := List.head?_dropWhile_not (·.component.isNone) segs
  rw [← ht] at hhead
  simpa using hhead

/-- The text of segments has the components of these. -/
theorem body_intercalate (h : ∀ s ∈ segs, '/' ∉ s) :
    body (['/'].intercalate segs) = segs.filterMap Segment.component := by
  by_cases hnil : segs = []
  · rw [hnil]
    rfl
  · unfold body segments
    rw [List.splitOn_intercalate '/' h hnil]

/-- How a path begins shows in its first component. -/
theorem anchor_eq (text : List Char) :
    anchor text = (components text).head?.toList.filter (fun c => c = .rootDir ∨ c = .curDir) := by
  unfold components
  have hbody : ((body (unrooted text)).head?.toList.filter
      (fun c => c = .rootDir ∨ c = .curDir)) = [] := by
    rw [List.filter_eq_nil_iff]
    intro c hc
    have hmem := component_of_mem_body (List.mem_of_mem_head? (Option.mem_toList.mp hc))
    simpa [not_or] using hmem
  unfold anchor
  split
  · rfl
  · split
    · rfl
    · exact hbody.symm

theorem anchor_of_prefix (hbase : components base ≠ []) (h : components base <+: components text) :
    anchor base = anchor text := by
  obtain ⟨rest, hrest⟩ := h
  obtain ⟨c, l, hl⟩ := List.exists_cons_of_ne_nil hbase
  rw [anchor_eq, anchor_eq, ← hrest, hl]
  rfl

/-- Where the base has components, what is left is relative, and puts together with
the base what the path has. -/
theorem components_stripPrefix {rel : List Char} (hbase : components base ≠ [])
    (h : stripPrefix text base = some rel) :
    rel.head? ≠ some '/' ∧ components text = components base ++ body rel := by
  unfold stripPrefix at h
  split at h
  · rename_i hpre
    cases h
    have hslash : ∀ s ∈ trimSegments (dropComponents (body (unrooted base)).length
        (segments (unrooted text))), '/' ∉ s := fun s hs =>
      slash_notMem_segments (mem_of_mem_dropComponents (mem_of_mem_trimSegments hs))
    refine ⟨?_, ?_⟩
    · cases htrim : trimSegments (dropComponents (body (unrooted base)).length
        (segments (unrooted text))) with
      | nil => exact fun h => by cases h
      | cons s rest =>
        have hs := component_of_trimSegments htrim
        have hno := hslash s (htrim ▸ List.mem_cons_self)
        cases s with
        | nil => simp [Segment.component] at hs
        | cons c s =>
          intro hhead
          have hc : c = '/' := by
            cases rest <;> simpa [List.intercalate, List.intersperse] using hhead
          exact hno (hc ▸ List.mem_cons_self)
    · rw [body_intercalate hslash, filterMap_trimSegments, filterMap_dropComponents]
      have hanchor := anchor_of_prefix hbase hpre
      unfold components at hpre ⊢
      rw [hanchor, List.prefix_append_right_inj] at hpre
      rw [hanchor, List.append_assoc]
      exact congrArg (anchor text ++ ·) (List.prefix_iff_eq_append.mp hpre).symm
  · cases h

end

/-! ## Normal forms -/

/-- A path without `.` and `..`, but for the `..` that a relative one may begin with. -/
structure Lexical where
  root : Bool
  ups : Nat
  names : List Segment
  deriving DecidableEq

namespace Lexical

/-- Where a relative path without components stays. -/
def here : Lexical := ⟨false, 0, []⟩

def step (l : Lexical) : Component → Lexical
  | .rootDir => ⟨true, 0, []⟩
  | .curDir => l
  | .normal name => { l with names := l.names ++ [name] }
  | .parentDir =>
    if l.names = [] then { l with ups := if l.root then l.ups else l.ups + 1 }
    else { l with names := l.names.dropLast }

def ofComponents (cs : List Component) : Lexical := cs.foldl step here

/-- The path is the directory or lies below it. -/
structure Under (dir path : Lexical) : Prop where
  root : path.root = dir.root
  ups : path.ups = dir.ups
  names : dir.names <+: path.names

instance (dir path : Lexical) : Decidable (Under dir path) :=
  decidable_of_iff (path.root = dir.root ∧ path.ups = dir.ups ∧ dir.names <+: path.names)
    ⟨fun h => ⟨h.1, h.2.1, h.2.2⟩, fun h => ⟨h.root, h.ups, h.names⟩⟩

/-- Going on from a directory along a relative path. -/
def enter (dir rel : Lexical) : Lexical where
  root := dir.root
  ups := if dir.root then dir.ups else dir.ups + (rel.ups - dir.names.length)
  names := dir.names.take (dir.names.length - rel.ups) ++ rel.names

/-- The relative path leads back to the directory as far as it leads out of it. -/
def Returns (dir rel : Lexical) : Prop :=
  (dir.root = true ∨ rel.ups ≤ dir.names.length) ∧
    dir.names.drop (dir.names.length - rel.ups) <+: rel.names

instance (dir rel : Lexical) : Decidable (Returns dir rel) := inferInstanceAs (Decidable (_ ∧ _))

theorem enter_here (dir : Lexical) : dir.enter here = dir := by
  simp [enter, here]

theorem enter_step (dir rel : Lexical) (hrel : rel.root = false) {c : Component}
    (hc : c ≠ .rootDir) : (dir.enter rel).step c = dir.enter (rel.step c) := by
  cases c with
  | rootDir => exact absurd rfl hc
  | curDir => rfl
  | normal name => simp [enter, step]
  | parentDir =>
    by_cases hnames : rel.names = []
    · have hstep : rel.step .parentDir = { rel with ups := rel.ups + 1 } := by
        simp [step, hnames, hrel]
      rw [hstep]
      by_cases hlen : dir.names.length ≤ rel.ups
      · -- nothing is left of the directory
        have h₁ : dir.names.length - rel.ups = 0 := by omega
        have h₂ : dir.names.length - (rel.ups + 1) = 0 := by omega
        have h₃ : rel.ups + 1 - dir.names.length = rel.ups - dir.names.length + 1 := by omega
        cases hroot : dir.root <;> simp [enter, step, hnames, h₁, h₂, h₃, hroot, Nat.add_assoc]
      · have h₁ : dir.names.take (dir.names.length - rel.ups) ≠ [] := by
          intro h
          have hl := congrArg List.length h
          rw [List.length_take, List.length_nil] at hl
          omega
        have h₂ : rel.ups - dir.names.length = 0 := by omega
        have h₃ : rel.ups + 1 - dir.names.length = 0 := by omega
        have h₄ : (dir.names.take (dir.names.length - rel.ups)).dropLast =
            dir.names.take (dir.names.length - (rel.ups + 1)) := by
          rw [List.dropLast_eq_take, List.take_take, List.length_take]
          congr 1
          omega
        simp only [enter, step, hnames, List.append_nil, if_neg h₁, h₂, h₃, h₄]
    · have happ : dir.names.take (dir.names.length - rel.ups) ++ rel.names ≠ [] :=
        List.append_ne_nil_of_right_ne_nil _ hnames
      simp [enter, step, hnames, List.dropLast_append_of_ne_nil hnames]

theorem step_root {l : Lexical} {c : Component} (hc : c ≠ .rootDir) : (l.step c).root = l.root := by
  cases c with
  | rootDir => exact absurd rfl hc
  | curDir => rfl
  | normal name => rfl
  | parentDir =>
    unfold step
    dsimp only
    split <;> rfl

/-- Going down a relative path is entering its normal form. -/
theorem foldl_enter (dir : Lexical) {cs : List Component} (hcs : ∀ c ∈ cs, c ≠ .rootDir) :
    cs.foldl step dir = dir.enter (ofComponents cs) := by
  suffices h : ∀ rel : Lexical, rel.root = false →
      cs.foldl step (dir.enter rel) = dir.enter (cs.foldl step rel) by
    have hh := h here rfl
    rwa [enter_here] at hh
  induction cs with
  | nil => exact fun _ _ => rfl
  | cons c cs ih =>
    intro rel hrel
    have hc := hcs c List.mem_cons_self
    rw [List.foldl_cons, List.foldl_cons, enter_step dir rel hrel hc]
    exact ih (fun c' h => hcs c' (List.mem_cons_of_mem c h)) _ ((step_root hc).trans hrel)

/-- A relative path stays in a directory exactly if it leads back as far as it leads out. -/
theorem under_enter_iff (dir rel : Lexical) : Under dir (dir.enter rel) ↔ Returns dir rel := by
  have hsplit : dir.names <+: dir.names.take (dir.names.length - rel.ups) ++ rel.names ↔
      dir.names.drop (dir.names.length - rel.ups) <+: rel.names := by
    nth_rewrite 1 [← List.take_append_drop (dir.names.length - rel.ups) dir.names]
    exact List.prefix_append_right_inj _
  have hups : (if dir.root then dir.ups else dir.ups + (rel.ups - dir.names.length)) = dir.ups ↔
      (dir.root = true ∨ rel.ups ≤ dir.names.length) := by
    cases dir.root
    · simp; omega
    · simp
  refine ⟨?_, ?_⟩
  · intro h
    exact ⟨hups.mp h.ups, hsplit.mp h.names⟩
  · intro h
    exact ⟨rfl, hups.mpr h.1, hsplit.mpr h.2⟩

end Lexical

/-- The normal form of a path. -/
def lexical (text : List Char) : Lexical := .ofComponents (components text)

theorem ofComponents_append (cs ds : List Component) (hds : ∀ c ∈ ds, c ≠ .rootDir) :
    Lexical.ofComponents (cs ++ ds) = (Lexical.ofComponents cs).enter (.ofComponents ds) := by
  unfold Lexical.ofComponents
  rw [List.foldl_append]
  exact Lexical.foldl_enter _ hds

/-- A `.` at the beginning does not count. -/
theorem lexical_eq_steps (text : List Char) : lexical text = .ofComponents (steps text) := by
  suffices h : ∀ (cs : List Component) (l : Lexical),
      cs.foldl Lexical.step l = (cs.filter (· ≠ .curDir)).foldl Lexical.step l from h _ _
  intro cs
  induction cs with
  | nil => exact fun _ => rfl
  | cons c cs ih =>
    intro l
    by_cases hc : c = .curDir
    · subst hc
      exact ih l
    · rw [List.filter_cons_of_pos (by simpa using hc)]
      exact ih _

/-- What is joined to a base is entered from there. -/
theorem lexical_join (base : List Char) {other : List Char} (hother : other.head? ≠ some '/') :
    lexical (joinText base other) = (lexical base).enter (.ofComponents (body other)) := by
  rw [lexical_eq_steps, steps_join base hother,
    ofComponents_append _ _ (fun c hc => (component_of_mem_body hc).1), lexical_eq_steps]

end ZeptoPM
