import Mathlib.Data.Set.Finite.Basic
import Mathlib.Order.WellFoundedSet

/- Deterministic machines driven by a list of inputs, and the two inductions
   made over their runs. `run step s is` is the state after the inputs `is`;
   `Meets step G s is` says that every input of the run was given in a state
   where `G` allows it. `invariant` carries a property of states along a run,
   `relates` a reflexive and transitive relation between states. A guarded run
   is the form in which "the property holds as long as no step does such and
   such" is stated and proved. -/
namespace ZeptoPM

section
variable {S I : Type} (step : S → I → S)

/-- The state after the inputs, one after the other. -/
def run (s : S) (is : List I) : S := is.foldl step s

/-- Each input of the run is allowed in the state that receives it. -/
def Meets (G : S → I → Prop) : S → List I → Prop
  | _, [] => True
  | s, i :: is => G s i ∧ Meets G (step s i) is

variable {step}

instance Meets.decidable {G : S → I → Prop} [∀ s i, Decidable (G s i)] :
    ∀ (s : S) (is : List I), Decidable (Meets step G s is)
  | _, [] => inferInstanceAs (Decidable True)
  | s, i :: is =>
    have _ : Decidable (Meets step G (step s i) is) := Meets.decidable (step s i) is
    inferInstanceAs (Decidable (G s i ∧ Meets step G (step s i) is))

@[simp] theorem run_nil (s : S) : run step s [] = s := rfl

@[simp] theorem run_cons (s : S) (i : I) (is : List I) :
    run step s (i :: is) = run step (step s i) is := rfl

theorem run_append (s : S) (is js : List I) :
    run step s (is ++ js) = run step (run step s is) js := List.foldl_append

variable {G H : S → I → Prop}

theorem Meets.append {s : S} {is js : List I} :
    Meets step G s (is ++ js) ↔ Meets step G s is ∧ Meets step G (run step s is) js := by
  induction is generalizing s with
  | nil => simp [Meets]
  | cons i is ih => simp only [List.cons_append, Meets, run_cons, ih, and_assoc]

theorem Meets.trivial (s : S) (is : List I) : Meets step (fun _ _ => True) s is := by
  induction is generalizing s with
  | nil => exact True.intro
  | cons i is ih => exact ⟨True.intro, ih (step s i)⟩

theorem Meets.of_forall {is : List I} (h : ∀ i ∈ is, ∀ s, G s i) (s : S) : Meets step G s is := by
  induction is generalizing s with
  | nil => exact True.intro
  | cons i is ih =>
    exact ⟨h i List.mem_cons_self s, ih (fun k hk => h k (List.mem_cons_of_mem i hk)) _⟩

/-- A guard may be weakened along a run by an invariant of the run. -/
theorem Meets.imp {P : S → Prop} (hP : ∀ s i, P s → G s i → P (step s i))
    (himp : ∀ s i, P s → G s i → H s i) :
    ∀ {s : S} {is : List I}, P s → Meets step G s is → Meets step H s is := by
  intro s is
  induction is generalizing s with
  | nil => exact fun _ _ => True.intro
  | cons i is ih =>
    intro hs h
    exact ⟨himp s i hs h.1, ih (hP s i hs h.1) h.2⟩

theorem Meets.mono (himp : ∀ s i, G s i → H s i) {s : S} {is : List I}
    (h : Meets step G s is) : Meets step H s is :=
  Meets.imp (P := fun _ => True) (fun _ _ _ _ => True.intro) (fun s i _ => himp s i) True.intro h

theorem Meets.and {s : S} {is : List I} :
    Meets step (fun s i => G s i ∧ H s i) s is ↔ Meets step G s is ∧ Meets step H s is := by
  induction is generalizing s with
  | nil => simp [Meets]
  | cons i is ih =>
    simp only [Meets, ih]
    tauto

/-- Two guards that agree where an invariant of the run holds are met by the same runs. -/
theorem Meets.congr (H H' : S → I → Prop) {P : S → Prop} (hP : ∀ s i, P s → G s i → P (step s i))
    (hH : ∀ s i, P s → G s i → (H s i ↔ H' s i)) {s : S} {is : List I} (hs : P s)
    (hG : Meets step G s is) : Meets step H s is ↔ Meets step H' s is := by
  refine ⟨fun h => ?_, fun h => ?_⟩
  · exact Meets.imp (G := fun s i => G s i ∧ H s i) (fun s i hs h => hP s i hs h.1)
      (fun s i hs h => (hH s i hs h.1).mp h.2) hs (Meets.and.mpr ⟨hG, h⟩)
  · exact Meets.imp (G := fun s i => G s i ∧ H' s i) (fun s i hs h => hP s i hs h.1)
      (fun s i hs h => (hH s i hs h.1).mpr h.2) hs (Meets.and.mpr ⟨hG, h⟩)

/-- What every allowed step preserves, every allowed run preserves. -/
theorem run_invariant {P : S → Prop} (hP : ∀ s i, P s → G s i → P (step s i)) :
    ∀ {s : S} {is : List I}, P s → Meets step G s is → P (run step s is) := by
  intro s is
  induction is generalizing s with
  | nil => exact fun hs _ => hs
  | cons i is ih => exact fun hs h => ih (hP s i hs h.1) h.2

variable (step) in
/-- Each input of the run is allowed in the state that receives it, given the
inputs that follow. -/
def MeetsRest (K : S → I → List I → Prop) : S → List I → Prop
  | _, [] => True
  | s, i :: is => K s i is ∧ MeetsRest K (step s i) is

variable (step) in
/-- Some input of the run is given in a state where `Q` holds. -/
def Occurs (Q : S → I → Prop) : S → List I → Prop
  | _, [] => False
  | s, i :: is => Q s i ∨ Occurs Q (step s i) is

instance Occurs.decidable {Q : S → I → Prop} [∀ s i, Decidable (Q s i)] :
    ∀ (s : S) (is : List I), Decidable (Occurs step Q s is)
  | _, [] => inferInstanceAs (Decidable False)
  | s, i :: is =>
    have _ : Decidable (Occurs step Q (step s i) is) := Occurs.decidable (step s i) is
    inferInstanceAs (Decidable (Q s i ∨ Occurs step Q (step s i) is))

instance MeetsRest.decidable {K : S → I → List I → Prop} [∀ s i is, Decidable (K s i is)] :
    ∀ (s : S) (is : List I), Decidable (MeetsRest step K s is)
  | _, [] => inferInstanceAs (Decidable True)
  | s, i :: is =>
    have _ : Decidable (MeetsRest step K (step s i) is) := MeetsRest.decidable (step s i) is
    inferInstanceAs (Decidable (K s i is ∧ MeetsRest step K (step s i) is))

theorem MeetsRest.trivial (s : S) (is : List I) : MeetsRest step (fun _ _ _ => True) s is := by
  induction is generalizing s with
  | nil => exact True.intro
  | cons i is ih => exact ⟨True.intro, ih (step s i)⟩

theorem MeetsRest.and_meets {K : S → I → List I → Prop} {s : S} {is : List I}
    (hG : Meets step G s is) (hK : MeetsRest step K s is) :
    MeetsRest step (fun s i is => G s i ∧ K s i is) s is := by
  induction is generalizing s with
  | nil => exact True.intro
  | cons i is ih => exact ⟨⟨hG.1, hK.1⟩, ih hG.2 hK.2⟩

/-- What every allowed step preserves, in view of the steps to come, holds with
none to come at the end. -/
theorem run_invariant_rest {K : S → I → List I → Prop} {P : S → List I → Prop}
    (hP : ∀ s i is, P s (i :: is) → K s i is → P (step s i) is) :
    ∀ {s : S} {is : List I}, P s is → MeetsRest step K s is → P (run step s is) [] := by
  intro s is
  induction is generalizing s with
  | nil => exact fun hs _ => hs
  | cons i is ih => exact fun hs h => ih (hP s i is hs h.1) h.2

/-- A reflexive and transitive relation kept by every allowed step relates the
two ends of every allowed run. -/
theorem run_relates {P : S → Prop} {R : S → S → Prop} (hrefl : ∀ s, R s s)
    (htrans : ∀ a b c, R a b → R b c → R a c) (hP : ∀ s i, P s → G s i → P (step s i))
    (hR : ∀ s i, P s → G s i → R s (step s i)) :
    ∀ {s : S} {is : List I}, P s → Meets step G s is → R s (run step s is) := by
  intro s is
  induction is generalizing s with
  | nil => exact fun _ _ => hrefl s
  | cons i is ih =>
    intro hs h
    exact htrans _ _ _ (hR s i hs h.1) (ih (hP s i hs h.1) h.2)

/-- So it is with the two ends of a loop over a list. -/
theorem foldl_relates {R : S → S → Prop} (hrefl : ∀ s, R s s)
    (htrans : ∀ {a b c}, R a b → R b c → R a c) (is : List I) (hR : ∀ i ∈ is, ∀ s, R s (step s i))
    (s : S) : R s (is.foldl step s) := by
  induction is generalizing s with
  | nil => exact hrefl s
  | cons i is ih =>
    exact htrans (hR i List.mem_cons_self s)
      (ih (fun j hj => hR j (List.mem_cons_of_mem i hj)) (step s i))

/-- What holds at the beginning of a run holds throughout, or ends with some input. -/
theorem run_exits {W : S → Prop} : ∀ {s : S} (is : List I), W s →
    Meets step (fun s i => W s ∧ W (step s i)) s is ∨
      ∃ mid i rest, is = mid ++ i :: rest ∧
        Meets step (fun s i => W s ∧ W (step s i)) s mid ∧
        W (run step s mid) ∧ ¬ W (step (run step s mid) i) := by
  intro s is
  induction is generalizing s with
  | nil => exact fun _ => Or.inl True.intro
  | cons i is ih =>
    intro hs
    by_cases hi : W (step s i)
    · rcases ih hi with hall | ⟨mid, j, rest, rfl, hmid, hlast, hend⟩
      · exact Or.inl ⟨⟨hs, hi⟩, hall⟩
      · exact Or.inr ⟨i :: mid, j, rest, rfl, ⟨⟨hs, hi⟩, hmid⟩, hlast, hend⟩
    · exact Or.inr ⟨[], i, is, rfl, True.intro, hs, hi⟩

/-- Where the steps that lead from `P` to `P` are those that `G` allows, the runs that
never leave `P` are those that `G` allows. -/
theorem reached_iff {J P : S → Prop} (hJ : ∀ s i, J s → J (step s i))
    (hP : ∀ s i, J s → H s i → P s → (P (step s i) ↔ G s i)) :
    ∀ {s : S} {is : List I}, J s → P s → Meets step H s is →
      ((∀ pre, pre <+: is → P (run step s pre)) ↔ Meets step G s is) := by
  intro s is
  induction is generalizing s with
  | nil =>
    intro _ hs _
    simp [Meets, hs]
  | cons i is ih =>
    intro hj hs hh
    refine ⟨?_, ?_⟩
    · intro h
      have hi : P (step s i) := h [i] (List.prefix_append [i] is)
      refine ⟨(hP s i hj hh.1 hs).mp hi, (ih (hJ s i hj) hi hh.2).mp ?_⟩
      intro pre hpre
      exact h (i :: pre) ((List.prefix_cons_inj i).mpr hpre)
    · intro h pre hpre
      have hi : P (step s i) := (hP s i hj hh.1 hs).mpr h.1
      cases pre with
      | nil => exact hs
      | cons j pre =>
        obtain ⟨rfl, hrest⟩ := List.cons_prefix_cons.mp hpre
        exact (ih (hJ s j hj) hi hh.2).mpr h.2 pre hrest

/-- What relates the inputs so far to the state, and is kept by every step, relates a
run to its end. -/
theorem run_history {P : List I → S → Prop} {s : S} (h₀ : P [] s)
    (hP : ∀ hist s i, P hist s → P (hist ++ [i]) (step s i)) (is : List I) :
    P is (run step s is) := by
  suffices h : ∀ hist s, P hist s → P (hist ++ is) (run step s is) from h [] s h₀
  induction is with
  | nil =>
    intro hist s hs
    rwa [List.append_nil]
  | cons i is ih =>
    intro hist s hs
    have hstep := ih _ _ (hP hist s i hs)
    rwa [List.append_assoc] at hstep

end

section
variable {α : Type}

/-- No element is reached from itself. -/
def Acyclic (r : α → α → Prop) : Prop := ∀ a, ¬ Relation.TransGen r a a

/-- A relation along which a number falls is acyclic. -/
theorem Acyclic.of_rank {r : α → α → Prop} (rank : α → Nat)
    (h : ∀ a b, r a b → rank b < rank a) : Acyclic r := by
  intro a haa
  have hlt : ∀ b, Relation.TransGen r a b → rank b < rank a := by
    intro b hab
    induction hab with
    | single hab => exact h _ _ hab
    | tail _ hbc ih => exact Nat.lt_trans (h _ _ hbc) ih
  exact Nat.lt_irrefl _ (hlt a haa)

/-- Induction along an acyclic relation that never leaves a finite list of
elements: to prove `P a`, assume it of everything `a` points to. -/
theorem Acyclic.induction {r : α → α → Prop} (hr : Acyclic r) (l : List α)
    {P : α → Prop} (hstep : ∀ a ∈ l, (∀ b ∈ l, r a b → P b) → P a) : ∀ a ∈ l, P a := by
  have hord : IsStrictOrder α (fun b a => Relation.TransGen r a b) :=
    { irrefl := hr
      trans := fun _ _ _ hab hbc => hbc.trans hab }
  have hwf : (Set.WellFoundedOn {a | a ∈ l} (fun b a => Relation.TransGen r a b)) :=
    (List.finite_toSet l).wellFoundedOn
  intro a ha
  refine hwf.induction ha ?_
  intro x hx ih
  exact hstep x hx (fun b hb hxb => ih b hb (Relation.TransGen.single hxb))

end

end ZeptoPM
