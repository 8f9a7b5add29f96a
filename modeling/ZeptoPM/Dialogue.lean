import Mathlib.Data.List.Basic

/- A client that asks questions, one after the other. What it is told may depend on all
   that was said before, so a responder is a function of the transcript: every way in
   which the answers of a changing world may turn out is one of them. Asking only adds to
   the transcript, and what was asked of a list is on it in the list's order. -/
namespace ZeptoPM

/-- Questions with the answers they got, the first one first. -/
abbrev Transcript (Q A : Type) := List (Q × A)

/-- What is answered after the exchanges of a transcript. -/
abbrev Responder (Q A : Type) := Transcript Q A → Q → A

section
variable {Q A : Type} (responder : Responder Q A)

def ask (t : Transcript Q A) (q : Q) : A × Transcript Q A :=
  (responder t q, t ++ [(q, responder t q)])

def askAll (t : Transcript Q A) : List Q → List A × Transcript Q A
  | [] => ([], t)
  | q :: qs =>
    let (answer, t) := ask responder t q
    let (answers, t) := askAll t qs
    (answer :: answers, t)

/-- The answers on the transcript are the responder's. -/
def Genuine (t : Transcript Q A) : Prop :=
  ∀ before q a after, t = before ++ (q, a) :: after → a = responder before q

variable {responder}

theorem genuine_nil : Genuine responder [] := by
  intro before q a after h
  cases before <;> cases h

theorem Genuine.ask {t : Transcript Q A} (h : Genuine responder t) (q : Q) :
    Genuine responder (ask responder t q).2 := by
  intro before q' a after heq
  rcases List.eq_nil_or_concat after with rfl | ⟨after', e, rfl⟩
  · obtain ⟨rfl, hlast⟩ := List.append_inj' (show t ++ [(q, responder t q)] = before ++ [(q', a)]
      from heq) rfl
    cases hlast
    rfl
  · refine h before q' a after' ?_
    have hsplit : t ++ [(q, responder t q)] = (before ++ (q', a) :: after') ++ [e] := by
      rw [List.append_assoc]
      exact heq.trans (by simp)
    exact (List.append_inj' hsplit rfl).1

theorem askAll_genuine {t : Transcript Q A} (h : Genuine responder t) (qs : List Q) :
    Genuine responder (askAll responder t qs).2 := by
  induction qs generalizing t with
  | nil => exact h
  | cons q qs ih => exact ih (h.ask q)

theorem askAll_length (t : Transcript Q A) (qs : List Q) :
    (askAll responder t qs).1.length = qs.length := by
  induction qs generalizing t with
  | nil => rfl
  | cons q qs ih => exact congrArg (· + 1) (ih _)

/-- Each question is asked once, in the order of the list. -/
theorem askAll_transcript (t : Transcript Q A) (qs : List Q) :
    (askAll responder t qs).2 = t ++ qs.zip (askAll responder t qs).1 := by
  induction qs generalizing t with
  | nil => exact (List.append_nil t).symm
  | cons q qs ih =>
    show (askAll responder (ask responder t q).2 qs).2 = _
    rw [ih]
    exact List.append_assoc t [(q, responder t q)] _

end

end ZeptoPM
