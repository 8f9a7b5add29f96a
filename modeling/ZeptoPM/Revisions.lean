import ZeptoPM.Attempts

/- The rounds of a review. A reviewer that asks for a revision has its coder's job done
   again, with the feedback added to the instruction, and the result reviewed again, as
   often as the limit allows. `revision_chain` follows the rounds one after the other,
   whatever else happens to the engine between them. -/
namespace ZeptoPM
open OrchestratorEngine

/-! ## Rounds -/

/-- What is added to the instruction of a coder. -/
def feedbackBlock (maxRevisions round : Nat) (feedback : String) : String :=
  "\n\n--- Reviewer feedback (revision " ++ toString round ++ "/" ++ toString maxRevisions ++
    ") ---\n" ++ feedback

/-- The blocks of all rounds so far, in order. -/
def feedbackBlocks (maxRevisions : Nat) (feedbacks : List String) : String :=
  String.join (feedbacks.mapIdx (fun i feedback => feedbackBlock maxRevisions (i + 1) feedback))

/-- What happens before the reviewer is done, and what it asks for then. -/
structure ReviewRound where
  before : List (World × Action)
  world : World
  feedback : String

/-- The coder and the reviewer of the last round that has been made. -/
structure ReviewState where
  core : Core
  coder : JobId
  reviewer : JobId

/-- The engine when the reviewer is done. -/
def ReviewState.engine (s : ReviewState) (x : ReviewRound) : OrchestratorEngine :=
  (run coreStep s.core x.before).engine

/-- The reviewer asks for a revision; if one is made, it is the next to be reviewed. -/
def reviewRound (maxRevisions : Nat) (s : ReviewState) (x : ReviewRound) : ReviewState :=
  let c := run coreStep s.core x.before
  match c.engine.handleReviewCompletion x.world s.reviewer (.revise x.feedback) maxRevisions with
  | (some (coder, reviewer), e) => ⟨{ c with engine := e }, coder, reviewer⟩
  | (none, e) => { s with core := { c with engine := e } }

/-- Between the rounds no records are taken away, and the clock does not fall behind. -/
def Undisturbed (s : ReviewState) (x : ReviewRound) : Prop :=
  Meets coreStep (fun c a => Legal c a ∧ a.2.removes = false) s.core x.before ∧
    x.world.After (s.engine x).ids

/-- The engine has gained the coder and the reviewer of another round, and nothing else. -/
structure Revision (coder reviewer : Job) (maxRevisions : Nat) (feedbacks : List String)
    (e : OrchestratorEngine) (previous newCoder newReviewer : JobId) (e' : OrchestratorEngine) :
    Prop where
  new : e.store.getJob newCoder = none ∧ e.store.getJob newReviewer = none ∧
    newCoder ≠ newReviewer
  coder : ∃ job, e'.store.getJob newCoder = some job ∧ job.status = .ready ∧
    job.instruction = coder.instruction ++ feedbackBlocks maxRevisions feedbacks ∧
    job.revisionRound = feedbacks.length ∧
    ∃ prev, e.store.getJob previous = some prev ∧ job.inputArtifactIds = prev.outputArtifactIds
  reviewer : ∃ job, e'.store.getJob newReviewer = some job ∧
    job.instruction = reviewer.instruction ∧ job.revisionRound = feedbacks.length ∧
    job.dependsOn = [newCoder]
  getJob : ∀ k, k ≠ newCoder → k ≠ newReviewer → e'.store.getJob k = e.store.getJob k
  queue : e'.readyQueue = e.readyQueue ++ [newCoder]
  rest : e' = { e with
    store := { e.store with jobs := e'.store.jobs }
    readyQueue := e'.readyQueue
    ids := e'.ids }

/-! ## Between the rounds -/

section
variable {job job' : Job}

/-- What a revision reads of a job and no call changes. -/
structure Job.SameTask (job job' : Job) : Prop where
  instruction : job'.instruction = job.instruction
  dependsOn : job'.dependsOn = job.dependsOn
  revisionRound : job'.revisionRound = job.revisionRound

theorem Job.Moved.sameTask (h : job.Moved job') : job.SameTask job' := by
  induction h with
  | same => exact ⟨rfl, rfl, rfl⟩
  | started w _ ih => exact ⟨ih.instruction, ih.dependsOn, ih.revisionRound⟩
  | completed w o _ ih => exact ⟨ih.instruction, ih.dependsOn, ih.revisionRound⟩
  | failed w err _ ih =>
    unfold Job.fail
    split <;> exact ⟨ih.instruction, ih.dependsOn, ih.revisionRound⟩
  | released _ ih => exact ⟨ih.instruction, ih.dependsOn, ih.revisionRound⟩

end

/-! ## One round -/

section
variable {coder reviewer : Job} {m : Nat} {feedbacks : List String} {s : ReviewState}
  {x : ReviewRound} {w : World}

/-- The reviewer of the last round and its coder. -/
structure InReview (coder reviewer : Job) (m : Nat) (feedbacks : List String) (s : ReviewState) :
    Prop where
  sound : Sound s.core
  coder : ∃ job, s.core.engine.store.getJob s.coder = some job ∧
    job.instruction = coder.instruction ++ feedbackBlocks m feedbacks
  reviewer : ∃ job, s.core.engine.store.getJob s.reviewer = some job ∧
    job.instruction = reviewer.instruction ∧ job.revisionRound = feedbacks.length ∧
    job.dependsOn.head? = some s.coder

theorem feedbackBlocks_append (feedback : String) : feedbackBlocks m (feedbacks ++ [feedback]) =
    feedbackBlocks m feedbacks ++ feedbackBlock m (feedbacks.length + 1) feedback := by
  unfold feedbackBlocks
  rw [List.mapIdx_append, String.join_append]
  simp

/-- What happens before the reviewer is done does not take the round away. -/
theorem InReview.before (h : InReview coder reviewer m feedbacks s) (hx : Undisturbed s x) :
    InReview coder reviewer m feedbacks { s with core := run coreStep s.core x.before } := by
  obtain ⟨cj, hcj, hcode⟩ := h.coder
  obtain ⟨rj, hrj, hreview, hround, hdeps⟩ := h.reviewer
  obtain ⟨cj', hcj', hc, _⟩ := moved_run h.sound hx.1 hcj
  obtain ⟨rj', hrj', hr, _⟩ := moved_run h.sound hx.1 hrj
  refine ⟨run_invariant (P := Sound) (fun c a hs ha => sound_act hs ha.1) h.sound hx.1,
    ⟨cj', hcj', hc.sameTask.instruction.trans hcode⟩,
    ⟨rj', hrj', hr.sameTask.instruction.trans hreview, hr.sameTask.revisionRound.trans hround, ?_⟩⟩
  rw [hr.sameTask.dependsOn]
  exact hdeps

theorem revisedCoder_instruction (j : JobId) (n : Nat) (feedback : String) :
    (revisedCoder w reviewer coder j n m feedback).instruction =
      coder.instruction ++ feedbackBlock m n feedback := by
  unfold revisedCoder feedbackBlock
  simp only [String.append_assoc]

/-- A decision keeps the engine sound. -/
theorem sound_review {c : Core} (hs : Sound c) (hw : w.After c.engine.ids) (j : JobId)
    (decision : ReviewDecision) :
    Sound { c with engine := (c.engine.handleReviewCompletion w j decision m).2 } := by
  obtain ⟨r, hr⟩ : ∃ r, ∀ job, c.engine.store.getJob j = some job → job.runId = r := by
    cases c.engine.store.getJob j with
    | none => exact ⟨"", nofun⟩
    | some job => exact ⟨job.runId, fun job' h => congrArg Job.runId (Option.some.inj h).symm⟩
  have hlegal : Legal c (w, .call r (.handleReviewCompletion j decision m)) := ⟨hw, hr⟩
  exact sound_act hs hlegal

/-- The jobs of a revision are new to the store. -/
theorem getJob_reviseJobs {e : OrchestratorEngine} (hg : Grounded e) (hw : w.After e.ids)
    {feedback : String} {rj cj : Job} :
    ∀ job ∈ e.reviseJobs w rj cj m feedback, e.store.getJob job.jobId = none := by
  intro job hmem
  cases hget : e.store.getJob job.jobId with
  | none => rfl
  | some job' =>
    have hissued := hg.supervised.jobIssued _ job' hget
    exact absurd hissued ((created_revised hw rj cj m feedback).fresh job hmem)

/-- Below the limit, another round is made. -/
theorem InReview.revision (h : InReview coder reviewer m feedbacks s)
    (hw : w.After s.core.engine.ids) (hm : feedbacks.length < m) (hbound : m < 2 ^ 32 - 1)
    (feedback : String) :
    ∃ c r e', s.core.engine.handleReviewCompletion w s.reviewer (.revise feedback) m =
        (some (c, r), e') ∧
      Revision coder reviewer m (feedbacks ++ [feedback]) s.core.engine s.coder c r e' ∧
      InReview coder reviewer m (feedbacks ++ [feedback]) ⟨{ s.core with engine := e' }, c, r⟩ := by
  obtain ⟨cj, hcj, hcode⟩ := h.coder
  obtain ⟨rj, hrj, hreview, hround, hdeps⟩ := h.reviewer
  obtain ⟨rest, hdeps⟩ := List.head?_eq_some_iff.mp hdeps
  obtain ⟨e, he⟩ : ∃ e, s.core.engine = e := ⟨_, rfl⟩
  rw [he] at hcj hrj hw ⊢
  -- the counter does not wrap around, as the limit is below its last value
  have hsucc : u32Succ rj.revisionRound = (feedbacks ++ [feedback]).length := by
    rw [hround, u32Succ_of_lt (by omega)]
    simp
  have hcall : e.handleReviewCompletion w s.reviewer (.revise feedback) m =
      (some (e.reviseIds w), e.revised w rj cj m feedback) := by
    have hle : u32Succ rj.revisionRound ≤ m := by
      rw [hsucc, List.length_append]
      exact hm
    simp [handleReviewCompletion, hrj, hdeps, hcj, Nat.not_lt.mpr hle, reviseIds, revised]
  have hnew := created_revised hw rj cj m feedback
  have hnone : ∀ job ∈ e.reviseJobs w rj cj m feedback, e.store.getJob job.jobId = none :=
    getJob_reviseJobs (he ▸ h.sound.grounded) hw
  have hcoder := hnew.getJob_new _ List.mem_cons_self
  have hreviewer := hnew.getJob_new _ (List.mem_cons_of_mem _ List.mem_cons_self)
  have hne : (e.reviseIds w).1 ≠ (e.reviseIds w).2 := by
    have hnodup : [(e.reviseIds w).1, (e.reviseIds w).2].Nodup := hnew.nodup
    simpa using hnodup
  have hinstruction : (revisedCoder w rj cj (e.reviseIds w).1 (u32Succ rj.revisionRound) m
      feedback).instruction = coder.instruction ++ feedbackBlocks m (feedbacks ++ [feedback]) := by
    rw [feedbackBlocks_append, ← String.append_assoc, ← hcode, revisedCoder_instruction, hsucc,
      List.length_append]
    rfl
  refine ⟨(e.reviseIds w).1, (e.reviseIds w).2, _, hcall, ⟨⟨hnone _ List.mem_cons_self,
    hnone _ (List.mem_cons_of_mem _ List.mem_cons_self), hne⟩, ⟨_, hcoder, rfl, hinstruction, hsucc,
      cj, hcj, rfl⟩, ⟨_, hreviewer, hreview, hsucc, rfl⟩, ?_, rfl, rfl⟩, ?_⟩
  · intro k hkc hkr
    refine hnew.getJob_old k ?_
    show k ∉ [(e.reviseIds w).1, (e.reviseIds w).2]
    simp [hkc, hkr]
  · have hsound : Sound { s.core with engine := e.revised w rj cj m feedback } := by
      have hreview := sound_review (m := m) h.sound (he ▸ hw) s.reviewer (.revise feedback)
      rw [he, hcall] at hreview
      exact hreview
    exact ⟨hsound, ⟨_, hcoder, hinstruction⟩, ⟨_, hreviewer, hreview, hsucc, rfl⟩⟩

/-- At the limit, none is. -/
theorem InReview.exhausted (h : InReview coder reviewer m feedbacks s) (hm : feedbacks.length = m)
    (hbound : m < 2 ^ 32 - 1) (feedback : String) :
    s.core.engine.handleReviewCompletion w s.reviewer (.revise feedback) m =
      (none, s.core.engine) := by
  obtain ⟨rj, hrj, _, hround, _⟩ := h.reviewer
  refine review_of_not_revises ?_
  intro rev hrev
  obtain rfl : rj = rev := Option.some.inj (hrj.symm.trans hrev.1)
  have hle := hrev.2.2.2
  rw [hround, hm, u32Succ_of_lt (by omega)] at hle
  exact Nat.not_succ_le_self m hle

/-- One round adds its feedback, up to the limit. -/
theorem InReview.round (h : InReview coder reviewer m feedbacks s) (hx : Undisturbed s x)
    (hlen : feedbacks.length ≤ m) (hbound : m < 2 ^ 32 - 1) :
    InReview coder reviewer m ((feedbacks ++ [x.feedback]).take m) (reviewRound m s x) := by
  have hbefore := h.before hx
  unfold reviewRound
  dsimp only
  -- below the limit the chain grows, at the limit nothing happens any more
  rcases Nat.lt_or_eq_of_le hlen with hlt | heq
  · obtain ⟨c, r, e', hcall, _, hnext⟩ := hbefore.revision hx.2 hlt hbound x.feedback
    have htake : (feedbacks ++ [x.feedback]).take m = feedbacks ++ [x.feedback] :=
      List.take_of_length_le (by rw [List.length_append]; exact hlt)
    rw [hcall, htake]
    exact hnext
  · have hcall := hbefore.exhausted (w := x.world) heq hbound x.feedback
    have htake : (feedbacks ++ [x.feedback]).take m = feedbacks := by
      rw [← heq]
      exact List.take_left
    rw [hcall, htake]
    exact hbefore

theorem take_append_take {α : Type} (a b : List α) (m : Nat) :
    (a.take m ++ b).take m = (a ++ b).take m := by
  rw [List.take_append, List.take_append, List.take_take, Nat.min_self, List.length_take]
  congr 2
  omega

theorem InReview.rounds (hbound : m < 2 ^ 32 - 1) {xs : List ReviewRound} :
    ∀ {feedbacks : List String} {s : ReviewState}, InReview coder reviewer m feedbacks s →
      feedbacks.length ≤ m → Meets (reviewRound m) Undisturbed s xs →
        InReview coder reviewer m ((feedbacks ++ xs.map (·.feedback)).take m)
          (run (reviewRound m) s xs) := by
  induction xs with
  | nil =>
    intro feedbacks s h hlen _
    rw [List.map_nil, List.append_nil, List.take_of_length_le hlen]
    exact h
  | cons x xs ih =>
    intro feedbacks s h hlen hxs
    have hnext := ih (h.round hxs.1 hlen hbound) (List.length_take_le ..) hxs.2
    rw [take_append_take, List.append_assoc] at hnext
    exact hnext

end

/-! ## The rounds of a review -/

/-- From a reviewer of a job that has not been revised yet, in any state that is
reached: every revision asked for makes the next round, as long as the limit allows,
and nothing after that; no other decision makes one. -/
theorem revision_chain (persistent : Bool) (sandboxOverride : Option Bool) (capsule : Bool)
    (history : List (World × Input)) (m : Nat) (coder reviewer : Job) (done : List ReviewRound)
    (x : ReviewRound)
    (hclocked : Meets Daemon.step Clocked (Daemon.off persistent sandboxOverride capsule) history)
    (hbound : m < 2 ^ 32 - 1) :
    let d := run Daemon.step (Daemon.off persistent sandboxOverride capsule) history
    let start : ReviewState := ⟨d.core, coder.jobId, reviewer.jobId⟩
    let s := run (reviewRound m) start done
    d.engine.store.getJob coder.jobId = some coder →
    d.engine.store.getJob reviewer.jobId = some reviewer →
    reviewer.dependsOn.head? = some coder.jobId → reviewer.revisionRound = 0 →
    Meets (reviewRound m) Undisturbed start (done ++ [x]) →
      (done.length < m → ∃ newCoder newReviewer e',
        (s.engine x).handleReviewCompletion x.world s.reviewer (.revise x.feedback) m =
            (some (newCoder, newReviewer), e') ∧
          Revision coder reviewer m ((done ++ [x]).map (·.feedback)) (s.engine x) s.coder newCoder
            newReviewer e') ∧
      (m ≤ done.length →
        (s.engine x).handleReviewCompletion x.world s.reviewer (.revise x.feedback) m =
          (none, s.engine x)) ∧
      ∀ decision : ReviewDecision, decision.isRevise = false →
        (s.engine x).handleReviewCompletion x.world s.reviewer decision m = (none, s.engine x) := by
  intro d start s hcoder hreviewer hdeps hround hmeets
  obtain ⟨hdone, hx, _⟩ := Meets.append.mp hmeets
  have hsound : Sound d.core := sound_run (sound_off ..) hclocked
  have hstart : InReview coder reviewer m [] start :=
    ⟨hsound, ⟨coder, hcoder, (String.append_empty).symm⟩,
      ⟨reviewer, hreviewer, rfl, hround, hdeps⟩⟩
  have hlast := (hstart.rounds hbound (Nat.zero_le m) hdone).before hx
  rw [List.nil_append] at hlast
  refine ⟨?_, ?_, ?_⟩
  · intro hlt
    have htake : (done.map (·.feedback)).take m = done.map (·.feedback) :=
      List.take_of_length_le (by rw [List.length_map]; exact Nat.le_of_lt hlt)
    rw [htake] at hlast
    obtain ⟨c, r, e', hcall, hrevision, _⟩ :=
      hlast.revision hx.2 (by rw [List.length_map]; exact hlt) hbound x.feedback
    refine ⟨c, r, e', hcall, ?_⟩
    rw [List.map_append]
    exact hrevision
  · intro hle
    refine hlast.exhausted ?_ hbound x.feedback
    rw [List.length_take, List.length_map]
    exact Nat.min_eq_left hle
  · intro decision hdecision
    cases decision with
    | revise feedback => cases hdecision
    | approved => rfl
    | rejected reason => rfl

/-- A plan of a coder and its reviewer. -/
def reviewPlan : ExecutionPlan where
  jobs :=
    [{ localId := "a", role := "coder", profileId := "coder", instruction := "write",
       dependsOn := [] },
     { localId := "b", role := "reviewer", profileId := "reviewer", instruction := "review",
       dependsOn := ["a"] }]
  channels := []

/-- The two jobs are there. -/
def reviewPlanned : List (World × Input) :=
  [(plannerWorld reviewPlan, .start), (plannerWorld reviewPlan, .command (.submitRun "task")),
    (plannerWorld reviewPlan, artifactEvent "job_1_1" "plan"),
    (plannerWorld reviewPlan, completedEvent "job_1_1" ["plan"])]

/-- The first revision of two that the limit allows. -/
theorem revision_chain_first :
    let e := (run Daemon.step (Daemon.off true none false) reviewPlanned).engine
    ∃ coder reviewer newCoder newReviewer e',
      e.handleReviewCompletion (plannerWorld reviewPlan) "job_1_3" (.revise "again") 2 =
          (some (newCoder, newReviewer), e') ∧
        Revision coder reviewer 2 ["again"] e "job_1_2" newCoder newReviewer e' := by
  intro e
  obtain ⟨coder, hcoder, _⟩ := Option.map_eq_some_iff.mp (show
    (e.store.getJob "job_1_2").map (fun job => job.dependsOn) = some [] by decide)
  obtain ⟨reviewer, hreviewer, hfields⟩ := Option.map_eq_some_iff.mp (show
    (e.store.getJob "job_1_3").map (fun job => (job.dependsOn, job.revisionRound)) =
      some (["job_1_2"], 0) by decide)
  obtain ⟨hdeps, hround⟩ := Prod.mk.inj hfields
  have hc : coder.jobId = "job_1_2" := RunStore.jobId_of_getJob hcoder
  have hr : reviewer.jobId = "job_1_3" := RunStore.jobId_of_getJob hreviewer
  have hchain := revision_chain true none false reviewPlanned 2 coder reviewer []
    ⟨[], plannerWorld reviewPlan, "again"⟩ (by decide) (by decide)
  rw [hc, hr] at hchain
  refine ⟨coder, reviewer, (hchain hcoder hreviewer (by rw [hdeps]; rfl) hround ?_).1 ?_⟩
  · exact ⟨⟨True.intro, by decide⟩, True.intro⟩
  · decide

end ZeptoPM
