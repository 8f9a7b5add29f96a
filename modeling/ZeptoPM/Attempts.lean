import ZeptoPM.JobMoves
import ZeptoPM.Outcomes
import ZeptoPM.Schedule

/- The record of a job over a run. As long as no records are taken away it stays where
   it is, moved on by what is reported of the job, and its attempts count the starts
   that have been made (`moved_run`). -/
namespace ZeptoPM
open OrchestratorEngine

/-! ## Starts -/

/-- The job that the action starts. -/
def startedBy (c : Core) (x : World × Action) : Option JobId :=
  match x.2 with
  | .call _ f => handedOut c.engine (x.1, f)
  | _ => none

/-- The action does not start the job. -/
def NotStarted (j : JobId) (c : Core) (x : World × Action) : Prop := startedBy c x ≠ some j

instance (j : JobId) (c : Core) (x : World × Action) : Decidable (NotStarted j c x) :=
  inferInstanceAs (Decidable (_ ≠ _))

/-- How often the actions start the job. -/
def startsOf (j : JobId) : Core → List (World × Action) → Nat
  | _, [] => 0
  | c, x :: l => (if NotStarted j c x then 0 else 1) + startsOf j (coreStep c x) l

section
variable {w : World} {e : OrchestratorEngine} {j : JobId} {job : Job}

/-- A job is started by the call that takes it from the front of the queue. -/
theorem startedBy_eq_some {c : Core} {x : World × Action} (h : startedBy c x = some j) :
    ∃ w r, x = (w, .call r .startNext) ∧ ∃ job q, c.engine.readyQueue = j :: q ∧
      c.engine.store.getJob j = some job ∧ (c.engine.startNext w).2 = c.engine.started w job q ∧
      job.jobId = j := by
  obtain ⟨w, a⟩ := x
  cases a with
  | call r f =>
    obtain ⟨rfl, job, q, hq, hjob, heq, hid⟩ := handedOut_eq_some h
    exact ⟨w, r, rfl, job, q, hq, hjob, heq, hid⟩
  | _ => cases h

/-- A job that is not started stays as it is. -/
theorem getJob_startNext_unstarted (h : handedOut e (w, .startNext) ≠ some j) :
    (e.startNext w).2.store.getJob j = e.store.getJob j := by
  unfold handedOut at h
  rcases startNext_cases w e with ⟨q, heq, _⟩ | ⟨job, q, _, _, _, heq⟩
  · rw [heq]
  · rw [heq] at h ⊢
    rw [getJob_started, if_neg]
    exact fun hj => h (congrArg some hj.symm)

/-! ## Actions -/

/-- A call keeps the jobs that are there, with their attempts unless it starts them. -/
theorem moved_call {db : Option SqlitePersistence} {r : RunId} {f : Call} (hg : Grounded e)
    (hl : Legal ⟨e, db⟩ (w, .call r f)) (hjob : e.store.getJob j = some job) :
    ∃ job', (f.apply w e).store.getJob j = some job' ∧ job.Moved job' ∧
      (NotStarted j ⟨e, db⟩ (w, .call r f) → job'.attempt = job.attempt) := by
  have hcreated : ∀ {e' : OrchestratorEngine} {r' : RunId} {new : List Job}, Created e e' r' new →
      ∃ job', e'.store.getJob j = some job' ∧ job.Moved job' ∧
        (NotStarted j ⟨e, db⟩ (w, .call r f) → job'.attempt = job.attempt) :=
    fun hn => ⟨job, hg.supervised.getJob_created hn hjob, .same, fun _ => rfl⟩
  cases outcome_call hg hl with
  | frame hf => exact ⟨job, (hf.getJob j).trans hjob, .same, fun _ => rfl⟩
  | submitted task hn _ => exact hcreated hn
  | dropped q heq hq =>
    refine ⟨job, ?_, .same, fun _ => rfl⟩
    show (e.startNext w).2.store.getJob j = some job
    rw [heq]
    exact hjob
  | started job₀ q hq hjob₀ heq =>
    have hget : (e.startNext w).2.store.getJob j = _ := heq ▸ getJob_started w e job₀ q j
    by_cases hj : j = job₀.jobId
    · rw [if_pos hj, ← hj, hjob] at hget
      refine ⟨_, hget, .started w .same, ?_⟩
      -- a call that does not start the job would have left its record alone
      intro hno
      have hsame := (getJob_startNext_unstarted hno).trans hjob
      exact congrArg Job.attempt (Option.some.inj (hget.symm.trans hsame))
    · rw [if_neg hj, hjob] at hget
      exact ⟨job, hget, .same, fun _ => rfl⟩
  | completed k o =>
    have hget := (getJob_markCompleted w e k o j).trans (congrArg _ hjob)
    obtain ⟨job₀, hjob₀, hmoved⟩ := moved_markCompleted hget
    obtain rfl : job = job₀ := Option.some.inj (hjob.symm.trans hjob₀)
    obtain ⟨job₁, hjob₁, hcases⟩ := markCompleted_job w e k o hget
    obtain rfl : job = job₁ := Option.some.inj (hjob.symm.trans hjob₁)
    refine ⟨_, hget, hmoved, fun _ => ?_⟩
    rcases hcases with ⟨_, h⟩ | ⟨_, _, _, h⟩ | ⟨_, _, h⟩ <;> rw [h]
    · rfl
    · rfl
  | failed k err =>
    have hget : (e.markFailed w k err).store.getJob j = _ := getJob_markFailed ..
    by_cases hj : j = k
    · subst hj
      rw [if_pos rfl, hjob] at hget
      exact ⟨_, hget, .failed w err .same, fun _ => Job.fail_attempt ..⟩
    · rw [if_neg hj, hjob] at hget
      exact ⟨job, hget, .same, fun _ => rfl⟩
  | planned r' p plan hn => exact hcreated hn.created
  | revised k d m rev new _ hn => exact hcreated hn.created
  | cancelled r' hc =>
    by_cases hk : e.Cancels r' j
    · exact ⟨_, (hc.getJob_cancelled j hk).trans (congrArg _ hjob), .failed w _ .same,
        fun _ => Job.fail_attempt ..⟩
    · exact ⟨job, (hc.getJob_other j hk).trans hjob, .same, fun _ => rfl⟩

theorem moved_act {c : Core} {x : World × Action} (hs : Sound c) (hl : Legal c x)
    (hx : x.2.removes = false) (hjob : c.engine.store.getJob j = some job) :
    ∃ job', (coreStep c x).engine.store.getJob j = some job' ∧ job.Moved job' ∧
      job'.attempt = if NotStarted j c x then job.attempt else u32Succ job.attempt := by
  by_cases hno : NotStarted j c x
  · rw [if_pos hno]
    obtain ⟨e, db⟩ := c
    obtain ⟨w, a⟩ := x
    cases a with
    | call r f =>
      obtain ⟨job', hjob', hmoved, hattempt⟩ := moved_call hs.grounded hl hjob
      exact ⟨job', hjob', hmoved, hattempt hno⟩
    | expire r => cases hx
    | hydrate => cases hx
    | persistRunState r => exact ⟨job, hjob, .same, rfl⟩
    | persistArtifact artifact => exact ⟨job, hjob, .same, rfl⟩
    | genId pre => exact ⟨job, hjob, .same, rfl⟩
  · rw [if_neg hno]
    obtain ⟨w, r, rfl, job₀, q, _, hjob₀, heq, hid⟩ := startedBy_eq_some (not_not.mp hno)
    obtain rfl : job = job₀ := Option.some.inj (hjob.symm.trans hjob₀)
    refine ⟨job.start w, ?_, .started w .same, rfl⟩
    show (c.engine.startNext w).2.store.getJob j = _
    rw [heq, getJob_started, if_pos hid.symm, hid, hjob]
    rfl

/-- After the actions a job is still there, moved on, with as many attempts more as it
has been started. -/
theorem moved_run {l : List (World × Action)} : ∀ {c : Core} {job : Job}, Sound c →
    Meets coreStep (fun c x => Legal c x ∧ x.2.removes = false) c l →
    c.engine.store.getJob j = some job →
      ∃ job', (run coreStep c l).engine.store.getJob j = some job' ∧ job.Moved job' ∧
        job'.attempt % 2 ^ 32 = (job.attempt + startsOf j c l) % 2 ^ 32 := by
  induction l with
  | nil => exact fun {c job} _ _ hjob => ⟨job, hjob, .same, rfl⟩
  | cons x l ih =>
    intro c job hs hl hjob
    obtain ⟨job₁, hjob₁, hmoved₁, hattempt⟩ := moved_act hs hl.1.1 hl.1.2 hjob
    obtain ⟨job', hjob', hmoved, hcount⟩ :=
      ih (c := coreStep c x) (sound_act hs hl.1.1) hl.2 hjob₁
    refine ⟨job', hjob', hmoved₁.trans hmoved, ?_⟩
    rw [hcount, hattempt, startsOf]
    split
    · rw [Nat.zero_add]
    · unfold u32Succ
      omega

end

end ZeptoPM
