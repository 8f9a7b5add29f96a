import ZeptoPM.Runs

/- What a handler's call does to runs, jobs, queue and slots. Most calls do
   nothing to them; `Outcome` has one case for each kind of change, with what
   there is to know about it. Invariants of the daemon are proved along it. -/
namespace ZeptoPM

def ReviewDecision.isRevise : ReviewDecision → Bool
  | .revise _ => true
  | .approved | .rejected _ => false

namespace OrchestratorEngine

/-- The reviewer's job asks for a revision of its first dependency, and has not
used up its rounds. -/
def Revises (e : OrchestratorEngine) (reviewer : JobId) (decision : ReviewDecision)
    (maxRevisions : Nat) (rev : Job) : Prop :=
  e.store.getJob reviewer = some rev ∧ decision.isRevise = true ∧
    (rev.dependsOn.head?.bind e.store.getJob).isSome = true ∧
    u32Succ rev.revisionRound ≤ maxRevisions

instance (e : OrchestratorEngine) (reviewer : JobId) (decision : ReviewDecision)
    (maxRevisions : Nat) (rev : Job) : Decidable (e.Revises reviewer decision maxRevisions rev) :=
  inferInstanceAs (Decidable (_ ∧ _ ∧ _ ∧ _))

/-- No job of the run is queued. -/
def NoneQueued (e : OrchestratorEngine) (r : RunId) : Prop :=
  ∀ k ∈ e.readyQueue, ∀ job ∈ e.store.getJob k, job.runId ≠ r

instance (e : OrchestratorEngine) (r : RunId) : Decidable (e.NoneQueued r) :=
  inferInstanceAs (Decidable (∀ _ ∈ _, ∀ _ ∈ _, _))

/-- Jobs have been created in a run that exists. -/
structure Enlarged (e e' : OrchestratorEngine) (r : RunId) (new : List Job) : Prop where
  created : Created e e' r new
  run : ∃ run, e.store.getRun r = some run
  getRun : ∀ k, e'.store.getRun k = e.store.getRun k

/-- What a call made in the world `w` does to the engine `e`. -/
inductive Outcome (w : World) (e : OrchestratorEngine) : Call → Prop
  | frame {c : Call} (h : Frame e (c.apply w e)) : Outcome w e c
  | submitted (task : String) (created : Created e (e.submitRun w task).2 (e.submitIds w).1
      [plannerJob w (e.submitIds w).1 (e.submitIds w).2 task])
      (fresh : ¬ Issued e.ids (e.submitIds w).1) : Outcome w e (.submitRun task)
  | dropped (q : List JobId) (heq : (e.startNext w).2 = { e with readyQueue := q })
      (hq : q = e.readyQueue ∨ ∃ j, e.readyQueue = j :: q ∧ e.store.getJob j = none) :
      Outcome w e .startNext
  | started (job : Job) (q : List JobId) (hq : e.readyQueue = job.jobId :: q)
      (hjob : e.store.getJob job.jobId = some job)
      (heq : (e.startNext w).2 = e.started w job q) : Outcome w e .startNext
  | completed (j : JobId) (o : List ArtifactId) : Outcome w e (.markCompleted j o)
  | failed (j : JobId) (err : String) : Outcome w e (.markFailed j err)
  | planned (r : RunId) (p : JobId) (plan : ExecutionPlan)
      (h : Enlarged e (e.acceptPlan w r p plan) r (planJobs w e.ids r p plan)) :
      Outcome w e (.acceptPlan r p plan)
  | revised (j : JobId) (d : ReviewDecision) (m : Nat) (rev : Job) (new : List Job)
      (hrev : e.Revises j d m rev)
      (h : Enlarged e (e.handleReviewCompletion w j d m).2 rev.runId new) :
      Outcome w e (.handleReviewCompletion j d m)
  | cancelled (r : RunId) (h : CancelledRun w e (e.cancelRun w r).2 r) :
      Outcome w e (.cancelRun r)

end OrchestratorEngine

open OrchestratorEngine

/-- A revision that is asked for is made. -/
theorem review_of_revises {w : World} {e : OrchestratorEngine} {jobId : JobId}
    {decision : ReviewDecision} {m : Nat} {rev : Job} (h : e.Revises jobId decision m rev) :
    ∃ coder feedback, (e.handleReviewCompletion w jobId decision m).2 =
      e.revised w rev coder m feedback := by
  obtain ⟨hrev, hdecision, hcoder, hround⟩ := h
  cases decision with
  | approved => cases hdecision
  | rejected reason => cases hdecision
  | revise feedback =>
    cases hdeps : rev.dependsOn with
    | nil =>
      rw [hdeps] at hcoder
      cases hcoder
    | cons coderId rest =>
      rw [hdeps] at hcoder
      obtain ⟨coder, hget⟩ := Option.isSome_iff_exists.mp hcoder
      have hget' : e.store.getJob coderId = some coder := hget
      refine ⟨coder, feedback, ?_⟩
      simp [handleReviewCompletion, hrev, hdeps, hget', Nat.not_lt.mpr hround, reviseIds, revised]

theorem review_of_not_revises {w : World} {e : OrchestratorEngine} {jobId : JobId}
    {decision : ReviewDecision} {m : Nat} (h : ∀ rev, ¬ e.Revises jobId decision m rev) :
    e.handleReviewCompletion w jobId decision m = (none, e) := by
  rcases review_cases w e jobId decision m with
    heq | ⟨rev, coder, fb, hrev, hd, ⟨rest, coderId, hdeps, hcoder⟩, hround, _⟩
  · exact heq
  · refine absurd ⟨hrev, ?_, ?_, hround⟩ (h rev)
    · rw [hd]
      rfl
    · rw [hdeps]
      exact Option.isSome_iff_exists.mpr ⟨coder, hcoder⟩

theorem frame_recordHeartbeat (w : World) (e : OrchestratorEngine) (j : JobId) :
    Frame e (e.recordHeartbeat w j) := by
  unfold recordHeartbeat
  split
  · exact ⟨fun _ => rfl, fun _ => rfl, rfl, rfl, rfl, rfl⟩
  · exact .refl e

/-- Every legal call has such an outcome. -/
theorem outcome_call {w : World} {e : OrchestratorEngine} {db : Option SqlitePersistence}
    {r : RunId} {c : Call} (h : Grounded e) (hl : Legal ⟨e, db⟩ (w, .call r c)) :
    Outcome w e c := by
  obtain ⟨hw, hc⟩ := hl
  change w.After e.ids at hw
  cases c with
  | submitRun task => exact .submitted task (created_submitRun hw task) (submitIds_fresh hw)
  | startNext =>
    rcases startNext_cases w e with ⟨q, heq, hq⟩ | ⟨job, q, _, hq, hjob, heq⟩
    · exact .dropped q (congrArg Prod.snd heq) hq
    · exact .started job q hq hjob (congrArg Prod.snd heq)
  | recordHeartbeat j => exact .frame (frame_recordHeartbeat w e j)
  | markCompleted j o => exact .completed j o
  | markFailed j err => exact .failed j err
  | acceptPlan r' p plan =>
    obtain ⟨rfl, hval, job, hjob, rfl⟩ := hc
    exact .planned _ p plan ⟨created_acceptPlan hw (validatePlan_eq_nil.mp hval),
      h.runOf p job hjob, fun _ => rfl⟩
  | handleReviewCompletion j d m =>
    rcases review_cases w e j d m with
      heq | ⟨rev, coder, fb, hrev, hd, ⟨rest, coderId, hdeps, hcoder⟩, hround, heq⟩
    · refine .frame ?_
      show Frame e (e.handleReviewCompletion w j d m).2
      rw [heq]
      exact .refl e
    · refine .revised j d m rev (e.reviseJobs w rev coder m fb) ⟨hrev, ?_, ?_, hround⟩ ?_
      · rw [hd]
        rfl
      · rw [hdeps]
        show (e.store.getJob coderId).isSome = true
        rw [hcoder]
        rfl
      · rw [heq]
        exact ⟨created_revised hw rev coder m fb, h.runOf j rev hrev, fun _ => rfl⟩
  | activateReadyChannels => exact .frame channelStep_activate.frame
  | routeChannelMessage ch j m => exact .frame (channelStep_route ch j m).frame
  | handleChannelDone ch j => exact .frame (channelStep_done ch j).frame
  | handleChannelPeerFailure ch j => exact .frame (channelStep_peerFailure ch j).frame
  | createArtifact a => exact .frame ⟨fun _ => rfl, fun _ => rfl, rfl, rfl, rfl, rfl⟩
  | cancelRun r' =>
    rcases cancelRun_cases w h.supervised.home r' with ⟨err, heq⟩ | ⟨_, _, _, _, _, hcancel⟩
    · refine .frame ?_
      show Frame e (e.cancelRun w r').2
      rw [heq]
      exact .refl e
    · exact .cancelled r' hcancel
  | nextJob => exact absurd hc id
  | markRunning j => exact absurd hc id
  | materializePlan r' p plan => exact absurd hc id
  | removeRun r' => exact absurd hc id

end ZeptoPM
