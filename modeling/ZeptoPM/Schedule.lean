import Mathlib.Algebra.Order.BigOperators.Group.List
import Mathlib.Algebra.Order.Group.Nat
import Mathlib.Algebra.Order.Ring.Nat
import ZeptoPM.Dependency

/- Schedules of a plan: what starts and outcomes, in any order, make of the jobs
   of a materialised plan. Every start uses up an attempt, so a schedule has only
   so many; and where nothing is left to do, acyclic dependencies leave a job
   unfinished only below a failed one. -/
namespace ZeptoPM
open OrchestratorEngine

/-! ## What happens to a job -/

/-- The ways a disciplined call changes a job. -/
inductive Job.Step (w : World) (job : Job) : Job → Prop where
  | start (ready : job.status = .ready) : Job.Step w job (job.start w)
  | complete (running : job.status = .running) (o : List ArtifactId) :
      Job.Step w job (job.complete w o)
  | fail (running : job.status = .running) (err : String) : Job.Step w job (job.fail w err)
  | promote (pending : job.status = .pending) : Job.Step w job job.setReady

/-- Attempts are counted within their limit: a job that waits for a start has
one left, and a failed job has none. -/
structure Job.Budgeted (job : Job) : Prop where
  le : job.attempt ≤ job.maxAttempts
  u32 : job.maxAttempts < 2 ^ 32
  waiting : job.status = .pending ∨ job.status = .ready → job.attempt < job.maxAttempts
  failed : job.status = .failed → job.attempt = job.maxAttempts
  notCancelled : job.status ≠ .cancelled

theorem Job.Budgeted.start {w : World} {job : Job} (h : job.Budgeted)
    (hst : job.status = .ready) : (job.start w).attempt = job.attempt + 1 := by
  have hlt := h.waiting (Or.inr hst)
  have hmax := h.u32
  exact u32Succ_of_lt (by omega)

theorem Job.Step.budgeted {w : World} {job job' : Job} (h : job.Budgeted)
    (hs : job.Step w job') : job'.Budgeted := by
  cases hs with
  | start hst =>
    have hlt := h.waiting (Or.inr hst)
    have hatt := h.start (w := w) hst
    refine ⟨by rw [hatt]; exact hlt, h.u32, ?_, ?_, by simp⟩
    · intro hs
      rcases hs with hs | hs <;> cases hs
    · intro hs
      cases hs
  | complete hst o =>
    refine ⟨h.le, h.u32, ?_, ?_, by simp⟩
    · intro hs
      rcases hs with hs | hs <;> cases hs
    · intro hs
      cases hs
  | fail hst err =>
    have hst' := Job.fail_status w job err
    refine ⟨by simpa using h.le, by simpa using h.u32, ?_, ?_, ?_⟩
    · intro hs
      rw [Job.fail_attempt, Job.fail_maxAttempts]
      cases hret : job.retries with
      | true => simpa [Job.retries] using hret
      | false =>
        rw [hst', hret] at hs
        rcases hs with hs | hs <;> cases hs
    · intro hs
      rw [Job.fail_attempt, Job.fail_maxAttempts]
      cases hret : job.retries with
      | true =>
        rw [hst', hret] at hs
        cases hs
      | false =>
        have hle := h.le
        have hge : ¬ job.attempt < job.maxAttempts := by simpa [Job.retries] using hret
        omega
    · rw [hst']
      split <;> simp
  | promote hst =>
    refine ⟨h.le, h.u32, fun _ => h.waiting (Or.inl hst), ?_, by simp⟩
    intro hs
    cases hs

/-- The id a call hands out, if it starts a job. -/
def handedOut (e : OrchestratorEngine) (c : World × Call) : Option JobId :=
  match c.2 with
  | .startNext => (e.startNext c.1).1.map (·.jobId)
  | _ => none

section
variable {w : World} {e : OrchestratorEngine}

theorem handedOut_eq_some {c : World × Call} {k : JobId} (h : handedOut e c = some k) :
    c.2 = .startNext ∧ ∃ job q, e.readyQueue = k :: q ∧ e.store.getJob k = some job ∧
      engineStep e c = e.started c.1 job q ∧ job.jobId = k := by
  obtain ⟨w, c⟩ := c
  unfold handedOut at h
  split at h
  · rename_i hc
    obtain ⟨job, hjob, rfl⟩ := Option.map_eq_some_iff.mp h
    obtain ⟨q, _, hq, hget, heq⟩ := startNext_job w e hjob
    refine ⟨hc, job, q, hq, hget, ?_, rfl⟩
    dsimp only at hc
    subst hc
    exact heq
  · cases h

/-- Handing out a job takes it off the queue. -/
theorem handedOut_eq_none {c : World × Call}
    (h : e.readyQueue.length ≤ (engineStep e c).readyQueue.length) : handedOut e c = none := by
  cases hout : handedOut e c with
  | none => rfl
  | some k =>
    obtain ⟨_, job, q, hq, _, heq, _⟩ := handedOut_eq_some hout
    rw [heq, readyQueue_started, hq, List.length_cons] at h
    omega

theorem startNext_step (h : Dependable e) {k : JobId} {job : Job}
    (hk : e.store.getJob k = some job) :
    ∃ job', (e.startNext w).2.store.getJob k = some job' ∧
      ((handedOut e (w, .startNext) = some k ∧ job.status = .ready ∧ job' = job.start w) ∨
        (handedOut e (w, .startNext) ≠ some k ∧ job' = job)) := by
  rcases startNext_cases w e with ⟨q, heq, _⟩ | ⟨head, q, _, hq, hhead, heq⟩
  · refine ⟨job, by rw [heq]; exact hk, Or.inr ⟨?_, rfl⟩⟩
    rw [handedOut, heq]
    simp
  · have hout : handedOut e (w, .startNext) = some head.jobId := by
      rw [handedOut, heq]
      rfl
    have hget : (e.startNext w).2.store.getJob k =
        if k = head.jobId then some (head.start w) else e.store.getJob k := by
      rw [heq, getJob_started, hhead]
      rfl
    by_cases hkh : k = head.jobId
    · subst hkh
      cases hk.symm.trans hhead
      exact ⟨_, by rw [hget, if_pos rfl], Or.inl ⟨hout, (h.head hq hk).1, rfl⟩⟩
    · refine ⟨job, by rw [hget, if_neg hkh]; exact hk, Or.inr ⟨?_, rfl⟩⟩
      rw [hout]
      simp only [ne_eq, Option.some.injEq]
      exact fun hkh' => hkh hkh'.symm

theorem markCompleted_step (h : Dependable e) {j : JobId} {o : List ArtifactId}
    (hact : e.activeJobs.contains j = true) {k : JobId} {job : Job}
    (hk : e.store.getJob k = some job) :
    ∃ job', (e.markCompleted w j o).store.getJob k = some job' ∧
      (job' = job ∨ (job.Step w job' ∧ job'.attempt = job.attempt)) := by
  have hsome : ∃ job', (e.markCompleted w j o).store.getJob k = some job' := by
    rw [getJob_markCompleted, hk]
    exact ⟨_, rfl⟩
  obtain ⟨job', hk'⟩ := hsome
  obtain ⟨_, jjob, _, hj, hrun, _⟩ := h.active hact
  refine ⟨job', hk', ?_⟩
  obtain ⟨job₀, hk₀, hcase⟩ := markCompleted_job w e j o hk'
  cases hk.symm.trans hk₀
  rcases hcase with ⟨rfl, rfl⟩ | ⟨_, _, hst, rfl⟩ | ⟨_, _, rfl⟩
  · cases hk.symm.trans hj
    exact Or.inr ⟨.complete hrun o, rfl⟩
  · exact Or.inr ⟨.promote hst, rfl⟩
  · exact Or.inl rfl

theorem markFailed_step (h : Dependable e) {j : JobId} {err : String}
    (hact : e.activeJobs.contains j = true) {k : JobId} {job : Job}
    (hk : e.store.getJob k = some job) :
    ∃ job', (e.markFailed w j err).store.getJob k = some job' ∧
      (job' = job ∨ (job.Step w job' ∧ job'.attempt = job.attempt)) := by
  obtain ⟨_, jjob, _, hj, hrun, _⟩ := h.active hact
  rw [getJob_markFailed]
  split
  · rename_i hkj
    subst hkj
    cases hk.symm.trans hj
    rw [hj]
    exact ⟨_, rfl, Or.inr ⟨.fail hrun err, Job.fail_attempt ..⟩⟩
  · exact ⟨job, hk, Or.inl rfl⟩

/-- What a disciplined call makes of a job that exists. -/
theorem disciplined_job (h : Dependable e) (hw : w.After e.ids) {c : Call}
    (hc : Disciplined e (w, c)) {k : JobId} {job : Job} (hk : e.store.getJob k = some job) :
    ∃ job', (c.apply w e).store.getJob k = some job' ∧
      ((handedOut e (w, c) = some k ∧ job.status = .ready ∧ job' = job.start w) ∨
        (handedOut e (w, c) ≠ some k ∧
          (job' = job ∨ (job.Step w job' ∧ job'.attempt = job.attempt)))) := by
  rcases disciplined_cases hw hc with hf | ⟨r, new, hn⟩ | rfl | ⟨j, o, rfl, hact⟩ |
    ⟨j, err, rfl, hact⟩
  · have hlen : e.readyQueue.length ≤ (engineStep e (w, c)).readyQueue.length :=
      (congrArg List.length hf.readyQueue).ge
    exact ⟨job, (hf.getJob k).trans hk, Or.inr ⟨by simp [handedOut_eq_none hlen], Or.inl rfl⟩⟩
  · have hlen : e.readyQueue.length ≤ (engineStep e (w, c)).readyQueue.length := by
      refine le_of_le_of_eq ?_ (congrArg List.length hn.readyQueue).symm
      simp
    exact ⟨job, h.supervised.getJob_created hn hk,
      Or.inr ⟨by simp [handedOut_eq_none hlen], Or.inl rfl⟩⟩
  · obtain ⟨job', hk', hcase⟩ := startNext_step (w := w) h hk
    exact ⟨job', hk', hcase.imp_right (And.imp_right Or.inl)⟩
  · obtain ⟨job', hk', hcase⟩ := markCompleted_step (w := w) (o := o) h hact hk
    exact ⟨job', hk', Or.inr ⟨by simp [handedOut], hcase⟩⟩
  · obtain ⟨job', hk', hcase⟩ := markFailed_step (w := w) h hact hk
    exact ⟨job', hk', Or.inr ⟨by simp [handedOut], hcase⟩⟩

/-- The calls of a schedule: starting the next job, and reporting an outcome of
an active one. -/
def ScheduleStep (e : OrchestratorEngine) (c : World × Call) : Prop :=
  match c.2 with
  | .startNext => True
  | .markCompleted j _ | .markFailed j _ => e.activeJobs.contains j = true
  | _ => False

instance (e : OrchestratorEngine) (c : World × Call) : Decidable (ScheduleStep e c) := by
  obtain ⟨w, _ | _⟩ := c <;> dsimp only [ScheduleStep] <;> infer_instance

theorem ScheduleStep.disciplined {c : World × Call} (h : ScheduleStep e c) : Disciplined e c := by
  obtain ⟨w, c⟩ := c
  cases c <;> first | exact h | exact absurd h id

/-- A schedule creates no job. -/
theorem schedule_none {c : World × Call} (hc : ScheduleStep e c) {k : JobId}
    (hk : e.store.getJob k = none) : (engineStep e c).store.getJob k = none := by
  obtain ⟨w, c⟩ := c
  unfold ScheduleStep at hc
  split at hc
  · rename_i hcall
    dsimp only at hcall
    subst hcall
    show (e.startNext w).2.store.getJob k = none
    rcases startNext_cases w e with ⟨q, heq, _⟩ | ⟨head, q, _, _, hhead, heq⟩ <;> rw [heq]
    · exact hk
    · rw [getJob_started]
      split
      · rename_i hkh
        rw [← hkh, hk]
        rfl
      · exact hk
  · rename_i j o hcall
    dsimp only at hcall
    subst hcall
    show (e.markCompleted w j o).store.getJob k = none
    rw [getJob_markCompleted, hk]
    rfl
  · rename_i j err hcall
    dsimp only at hcall
    subst hcall
    show (e.markFailed w j err).store.getJob k = none
    rw [getJob_markFailed]
    split
    · rename_i hkj
      rw [← hkj, hk]
      rfl
    · exact hk
  · exact absurd hc id

/-- A job that a disciplined call brings into being has all its attempts left. -/
theorem disciplined_new (hw : w.After e.ids) {c : Call}
    (hc : Disciplined e (w, c)) {k : JobId} (hk : e.store.getJob k = none) {job : Job}
    (hk' : (c.apply w e).store.getJob k = some job) :
    (job.status = .ready ∨ job.status = .pending) ∧ job.attempt = 0 ∧ job.maxAttempts = 3 := by
  have hno : ScheduleStep e (w, c) → False := by
    intro hs
    have hnone := schedule_none hs hk
    change (c.apply w e).store.getJob k = none at hnone
    rw [hk'] at hnone
    cases hnone
  rcases disciplined_cases hw hc with hf | ⟨r, new, hn⟩ | rfl | ⟨j, o, rfl, hact⟩ |
    ⟨j, err, rfl, hact⟩
  · rw [hf.getJob, hk] at hk'
    cases hk'
  · rcases hn.cases hk' with ⟨hmem, rfl⟩ | ⟨_, hold⟩
    · refine ⟨?_, hn.attempts job hmem⟩
      rcases hn.shape job hmem with ⟨hst, _⟩ | ⟨hst, _⟩
      · exact Or.inl hst
      · exact Or.inr hst
    · rw [hk] at hold
      cases hold
  · exact absurd (True.intro : ScheduleStep e (w, .startNext)) hno
  · exact absurd (hact : ScheduleStep e (w, .markCompleted j o)) hno
  · exact absurd (hact : ScheduleStep e (w, .markFailed j err)) hno

/-- Every job keeps within its attempts. -/
def Budgeted (e : OrchestratorEngine) : Prop :=
  ∀ k job, e.store.getJob k = some job → job.Budgeted

theorem budgeted_step (h : Dependable e) (hb : Budgeted e) (hw : w.After e.ids) {c : Call}
    (hc : Disciplined e (w, c)) : Budgeted (c.apply w e) := by
  intro k job' hk'
  cases hk : e.store.getJob k with
  | none =>
    obtain ⟨hst, hatt, hmax⟩ := disciplined_new hw hc hk hk'
    refine ⟨by omega, by omega, fun _ => by omega, ?_, ?_⟩
    · intro hf
      rcases hst with hst | hst <;> simp [hst] at hf
    · rcases hst with hst | hst <;> simp [hst]
  | some job =>
    obtain ⟨job'', hk'', hcase⟩ := disciplined_job h hw hc hk
    rw [hk'] at hk''
    cases hk''
    have hbj := hb k job hk
    rcases hcase with ⟨_, hst, rfl⟩ | ⟨_, rfl | ⟨hs, _⟩⟩
    · exact (Job.Step.start hst).budgeted hbj
    · exact hbj
    · exact hs.budgeted hbj

theorem budgeted_new (n : Nat) : Budgeted (new n) := by
  intro k job h
  cases h

theorem budgeted_run {n : Nat} {cs : List (World × Call)}
    (h : Meets engineStep Disciplined (new n) cs) : Budgeted (run engineStep (new n) cs) :=
  (run_invariant (P := fun e => DependableFresh e ∧ Budgeted e)
    (fun e c he hc => ⟨dependableFresh_step e c he.1 hc,
      budgeted_step he.1.1 he.2 (after_of_startedAt he.1.2) hc⟩)
    ⟨⟨dependable_new n, rfl⟩, budgeted_new n⟩ h).2

/-! ## Starts use up attempts -/

/-- The starts a job has left. -/
def attemptsLeft (s : RunStore) (k : JobId) : Nat :=
  ((s.getJob k).map (fun j => j.maxAttempts - j.attempt)).getD 0

/-- The starts the jobs of a list have left together. -/
def budget (s : RunStore) (ks : List JobId) : Nat := (ks.map (attemptsLeft s)).sum

/-- How often a schedule starts a job of the list. -/
def starts (ks : List JobId) : OrchestratorEngine → List (World × Call) → Nat
  | _, [] => 0
  | e, c :: cs =>
    (if (handedOut e c).any ks.contains then 1 else 0) + starts ks (engineStep e c) cs

theorem attemptsLeft_step {c : World × Call} (h : DependableFresh e) (hb : Budgeted e)
    (hc : ScheduleStep e c) (k : JobId) :
    attemptsLeft (engineStep e c).store k ≤ attemptsLeft e.store k ∧
      (handedOut e c = some k →
        attemptsLeft (engineStep e c).store k < attemptsLeft e.store k) := by
  unfold attemptsLeft
  cases hk : e.store.getJob k with
  | none =>
    rw [schedule_none hc hk]
    refine ⟨Nat.le_refl _, fun hout => ?_⟩
    obtain ⟨_, job, _, _, hjob, _⟩ := handedOut_eq_some hout
    rw [hk] at hjob
    cases hjob
  | some job =>
    obtain ⟨job', hk', hcase⟩ := disciplined_job (w := c.1) (c := c.2) h.1
      (after_of_startedAt h.2) hc.disciplined hk
    change (engineStep e c).store.getJob k = some job' at hk'
    rw [hk']
    simp only [Option.map_some, Option.getD_some]
    rcases hcase with ⟨_, hst, rfl⟩ | ⟨hout, rfl | ⟨hs, hatt⟩⟩
    · have hlt := (hb k job hk).waiting (Or.inr hst)
      have hatt := (hb k job hk).start (w := c.1) hst
      have hmax : (job.start c.1).maxAttempts = job.maxAttempts := rfl
      omega
    · exact ⟨Nat.le_refl _, fun h => absurd h hout⟩
    · have hmax : job'.maxAttempts = job.maxAttempts := by
        cases hs
        · rfl
        · rfl
        · exact Job.fail_maxAttempts ..
        · rfl
      rw [hatt, hmax]
      exact ⟨Nat.le_refl _, fun h => absurd h hout⟩

theorem budget_step {c : World × Call} (h : DependableFresh e) (hb : Budgeted e)
    (hc : ScheduleStep e c) (ks : List JobId) :
    (if (handedOut e c).any ks.contains then 1 else 0) + budget (engineStep e c).store ks ≤
      budget e.store ks := by
  have hle : ∀ k ∈ ks, attemptsLeft (engineStep e c).store k ≤ attemptsLeft e.store k :=
    fun k _ => (attemptsLeft_step h hb hc k).1
  split
  · rename_i hout
    rw [Option.any_eq_true] at hout
    obtain ⟨k, hk, hmem⟩ := hout
    have hlt := List.sum_lt_sum _ _ hle
      ⟨k, List.contains_iff_mem.mp hmem, (attemptsLeft_step h hb hc k).2 hk⟩
    unfold budget
    omega
  · rw [Nat.zero_add]
    exact List.sum_le_sum hle

theorem schedule_step {c : World × Call} (h : DependableFresh e ∧ Budgeted e)
    (hc : ScheduleStep e c) : DependableFresh (engineStep e c) ∧ Budgeted (engineStep e c) :=
  ⟨dependableFresh_step e c h.1 hc.disciplined,
    budgeted_step h.1.1 h.2 (after_of_startedAt h.1.2) hc.disciplined⟩

/-- A schedule starts the jobs of a list at most as often as they have attempts left. -/
theorem starts_le (ks : List JobId) {sched : List (World × Call)} :
    ∀ {e : OrchestratorEngine}, DependableFresh e ∧ Budgeted e →
      Meets engineStep ScheduleStep e sched →
      starts ks e sched + budget (run engineStep e sched).store ks ≤ budget e.store ks := by
  induction sched with
  | nil =>
    intro e _ _
    rw [starts, run_nil, Nat.zero_add]
  | cons c sched ih =>
    intro e h hs
    have hstep := budget_step h.1 h.2 hs.1 ks
    have hrest := ih (schedule_step h hs.1) hs.2
    rw [starts, run_cons]
    omega

end

end ZeptoPM
