import ZeptoPM.Commute
import ZeptoPM.Runs

/- The two ways in which a lost process becomes a failure. While the daemon is alive
   a running job is failed by `mark_failed`; when it starts, the jobs it finds running
   are failed inside the loop that loads them. Both decide alike what becomes of the
   job, but only `mark_failed` asks whether the run is finished, and only the loop
   fills the queue anew from the statuses. `Recoverable` says of a state when these
   two differences do not show. -/
namespace ZeptoPM
open OrchestratorEngine

/-- What the two ways are compared in: of a job, its run, its status and its attempts. -/
def Job.fate (job : Job) : RunId × JobStatus × Nat := (job.runId, job.status, job.attempt)

/-- The database holds the runs and jobs of the store as they are. -/
structure FullyPersisted (db : SqlitePersistence) (s : RunStore) : Prop where
  run : ∀ k, db.getRun k = s.getRun k
  job : ∀ k, db.getJob k = s.getJob k

/-- The list names the running jobs, each once. The order is free, and so are the
times at which they are failed. -/
structure NamesRunning (s : RunStore) (l : List (World × JobId)) : Prop where
  nodup : (l.map Prod.snd).Nodup
  mem : ∀ k, k ∈ l.map Prod.snd ↔ ∃ job, s.getJob k = some job ∧ job.status = .running

instance (db : SqlitePersistence) (s : RunStore) : Decidable (FullyPersisted db s) :=
  decidable_of_iff
    ((∀ k ∈ db.runs.map.keys ++ s.runs.map.keys, db.getRun k = s.getRun k) ∧
      ∀ k ∈ db.jobs.map.keys ++ s.jobs.map.keys, db.getJob k = s.getJob k) <| by
    refine ⟨fun h => ⟨fun k => ?_, fun k => ?_⟩, fun h => ⟨fun k _ => h.run k, fun k _ => h.job k⟩⟩
    · by_cases hk : k ∈ db.runs.map.keys ++ s.runs.map.keys
      · exact h.1 k hk
      · rw [List.mem_append, not_or] at hk
        show (db.runs.get k).map Run.ofRow = s.runs.get k
        rw [Table.get_of_notMem_keys hk.1, Table.get_of_notMem_keys hk.2]
        rfl
    · by_cases hk : k ∈ db.jobs.map.keys ++ s.jobs.map.keys
      · exact h.2 k hk
      · rw [List.mem_append, not_or] at hk
        show (db.jobs.get k).map Job.ofRow = s.jobs.get k
        rw [Table.get_of_notMem_keys hk.1, Table.get_of_notMem_keys hk.2]
        rfl

instance (s : RunStore) (l : List (World × JobId)) : Decidable (NamesRunning s l) :=
  decidable_of_iff
    ((l.map Prod.snd).Nodup ∧ ∀ k ∈ l.map Prod.snd ++ s.jobs.map.keys,
      (k ∈ l.map Prod.snd ↔ ∃ job ∈ s.getJob k, job.status = .running)) <| by
    refine ⟨fun h => ⟨h.1, fun k => ?_⟩, fun h => ⟨h.nodup, fun k _ => h.mem k⟩⟩
    by_cases hk : k ∈ l.map Prod.snd ++ s.jobs.map.keys
    · exact h.2 k hk
    · rw [List.mem_append, not_or] at hk
      have hnone : s.getJob k = none := Table.get_of_notMem_keys hk.2
      refine ⟨fun hmem => absurd hmem hk.1, ?_⟩
      intro h
      obtain ⟨job, hjob, _⟩ := h
      rw [hnone] at hjob
      cases hjob

/-- `mark_failed` on one job after the other, as if its process were lost. -/
def OrchestratorEngine.loseAll (e : OrchestratorEngine) (l : List (World × JobId)) :
    OrchestratorEngine :=
  l.foldl (fun e x => e.markFailed x.1 x.2 "daemon restarted — process lost") e

/-- Same statuses and attempts of jobs, same statuses of runs, same jobs queued. -/
structure SameFate (e e' : OrchestratorEngine) : Prop where
  job : ∀ k, (e.store.getJob k).map Job.fate = (e'.store.getJob k).map Job.fate
  run : ∀ k, (e.store.getRun k).map Run.status = (e'.store.getRun k).map Run.status
  queued : ∀ k, k ∈ e.readyQueue ↔ k ∈ e'.readyQueue

/-- A running job that is put back when its process is lost. -/
def Job.Requeued (job : Job) : Prop := job.status = .running ∧ job.retries = true

instance (job : Job) : Decidable job.Requeued := inferInstanceAs (Decidable (_ ∧ _))

/-- A running job that has had its last attempt. -/
def Job.Exhausted (job : Job) : Prop := job.status = .running ∧ job.retries = false

instance (job : Job) : Decidable job.Exhausted := inferInstanceAs (Decidable (_ ∧ _))

/-- The running jobs apart that will be put back, the queue holds exactly the ready
jobs. A run whose unfinished jobs are all running for the last time, with at least one
of them, is marked failed already. -/
structure Recoverable (e : OrchestratorEngine) : Prop where
  queued : ∀ k, (∀ job, e.store.getJob k = some job → ¬ job.Requeued) →
    (k ∈ e.readyQueue ↔ ∃ job, e.store.getJob k = some job ∧ job.status = .ready)
  ended : ∀ r run, e.store.getRun r = some run →
    (∃ k job, e.store.getJob k = some job ∧ job.runId = r ∧ job.status = .running) →
    (∀ k job, e.store.getJob k = some job → job.runId = r → job.status.unfinished = true →
      job.Exhausted) → run.status = .failed

theorem Job.fail_fate (w w' : World) (err err' : String) (job : Job) :
    (job.fail w err).fate = (job.fail w' err').fate := by
  unfold Job.fail
  split <;> rfl

/-! ## Losing the jobs one by one -/

/-- The jobs of the list are running and hold a slot for their runs. -/
def Losable (e : OrchestratorEngine) (l : List (World × JobId)) : Prop :=
  (l.map Prod.snd).Nodup ∧ ∀ k ∈ l.map Prod.snd, ∃ job, e.store.getJob k = some job ∧
    job.status = .running ∧ e.activeJobs.get k = some job.runId

section
variable {e : OrchestratorEngine} {x : World × JobId} {l : List (World × JobId)}

theorem losable_tail (h : Losable e (x :: l)) :
    Losable (e.markFailed x.1 x.2 "daemon restarted — process lost") l := by
  obtain ⟨hnodup, hall⟩ := h
  rw [List.map_cons, List.nodup_cons] at hnodup
  refine ⟨hnodup.2, fun k hk => ?_⟩
  have hne : k ≠ x.2 := fun heq => hnodup.1 (heq ▸ hk)
  rw [getJob_markFailed, if_neg hne, activeJobs_markFailed, HashMap.get_remove, if_neg hne]
  exact hall k (List.mem_cons_of_mem x.2 hk)

theorem getJob_loseAll (l : List (World × JobId)) : ∀ {e : OrchestratorEngine},
    (l.map Prod.snd).Nodup → ∀ (w : World) (k : JobId),
    ((e.loseAll l).store.getJob k).map Job.fate = (e.store.getJob k).map (fun job =>
      if k ∈ l.map Prod.snd then (job.fail w "daemon restarted — process lost").fate
      else job.fate) := by
  induction l with
  | nil =>
    intro e _ w k
    show (e.store.getJob k).map Job.fate = _
    congr 1
  | cons x l ih =>
    intro e hnodup w k
    rw [List.map_cons, List.nodup_cons] at hnodup
    show (((e.markFailed x.1 x.2 _).loseAll l).store.getJob k).map Job.fate = _
    rw [ih hnodup.2 w k, getJob_markFailed]
    by_cases hk : k = x.2
    · subst hk
      rw [if_pos rfl, Option.map_map]
      congr 1
      funext job
      rw [if_pos (List.mem_map_of_mem List.mem_cons_self), Function.comp, if_neg hnodup.1]
      exact Job.fail_fate ..
    · have hmem : k ∈ (x :: l).map Prod.snd ↔ k ∈ l.map Prod.snd := by
        rw [List.map_cons, List.mem_cons, or_iff_right hk]
      rw [if_neg hk]
      congr 1
      funext job
      by_cases hl : k ∈ l.map Prod.snd
      · rw [if_pos hl, if_pos (hmem.mpr hl)]
      · rw [if_neg hl, if_neg (fun h => hl (hmem.mp h))]

theorem mem_readyQueue_loseAll (l : List (World × JobId)) : ∀ {e : OrchestratorEngine},
    (l.map Prod.snd).Nodup → ∀ k, k ∈ (e.loseAll l).readyQueue ↔ k ∈ e.readyQueue ∨
      (k ∈ l.map Prod.snd ∧ ∃ job, e.store.getJob k = some job ∧ job.retries = true) := by
  induction l with
  | nil =>
    intro e _ k
    exact ⟨Or.inl, fun h => h.elim id (fun hmem => by cases hmem.1)⟩
  | cons x l ih =>
    intro e hnodup k
    rw [List.map_cons, List.nodup_cons] at hnodup
    show k ∈ ((e.markFailed x.1 x.2 _).loseAll l).readyQueue ↔ _
    rw [ih hnodup.2 k]
    have hpush : k ∈ (e.markFailed x.1 x.2 "daemon restarted — process lost").readyQueue ↔
        k ∈ e.readyQueue ∨
          (k = x.2 ∧ ∃ job, e.store.getJob k = some job ∧ job.retries = true) := by
      rw [readyQueue_markFailed]
      by_cases hreq : e.requeues x.2 = true
      · rw [if_pos hreq, List.mem_append, List.mem_singleton]
        refine or_congr_right ⟨fun hk => ⟨hk, ?_⟩, fun hk => hk.1⟩
        rw [hk]
        exact (requeues_iff e x.2).mp hreq
      · rw [if_neg hreq]
        refine ⟨Or.inl, fun h => h.resolve_right ?_⟩
        intro h
        obtain ⟨hk, hjob⟩ := h
        rw [hk] at hjob
        exact hreq ((requeues_iff e x.2).mpr hjob)
    rw [hpush, List.map_cons, List.mem_cons, getJob_markFailed]
    by_cases hk : k = x.2
    · simp [hk, hnodup.1]
    · simp [hk]

/-- Some job of the list is of the run. -/
def Hits (e : OrchestratorEngine) (l : List (World × JobId)) (r : RunId) : Prop :=
  ∃ k ∈ l.map Prod.snd, ∃ job, e.store.getJob k = some job ∧ job.runId = r

/-- The run has an unfinished job, read off the jobs' fates. -/
theorem unfinished_iff {s : RunStore} {r : RunId} : Unfinished s r ↔
    ∃ k f, (s.getJob k).map Job.fate = some f ∧ f.1 = r ∧ f.2.1.unfinished = true := by
  refine ⟨?_, ?_⟩
  · intro h
    obtain ⟨k, job, hget, hr, hun⟩ := h
    exact ⟨k, job.fate, by rw [hget]; rfl, hr, hun⟩
  · intro h
    obtain ⟨k, f, hf, hr, hun⟩ := h
    obtain ⟨job, hget, rfl⟩ := Option.map_eq_some_iff.mp hf
    exact ⟨k, job, hget, hr, hun⟩

/-- One lost job: its run is marked failed if nothing of it is left to do. -/
theorem status_markFailed {w : World} {j : JobId} (err : String) {job : Job}
    (hjob : e.store.getJob j = some job) (hact : e.activeJobs.get j = some job.runId)
    (k : RunId) :
    (k = job.runId → ¬ Unfinished (e.markFailed w j err).store k →
      ((e.markFailed w j err).store.getRun k).map Run.status =
        (e.store.getRun k).map (fun _ => .failed)) ∧
    ((k = job.runId → Unfinished (e.markFailed w j err).store k) →
      (e.markFailed w j err).store.getRun k = e.store.getRun k) := by
  have hget := getRun_report (w := w) (.failed err) hact k
  have hself : (e.markFailed w j err).store.getJob j = some (job.fail w err) := by
    rw [getJob_markFailed, if_pos rfl, hjob]
    rfl
  change (e.markFailed w j err).store.getRun k = if k = job.runId then (e.store.getRun _).map
    (Run.checked w ((e.markFailed w j err).store.listRunJobs w job.runId)) else _ at hget
  refine ⟨fun hk hdone => ?_, fun hopen => ?_⟩
  · subst hk
    rw [hget, if_pos rfl, Option.map_map]
    congr 1
    funext run
    have hnone : ((e.markFailed w j err).store.listRunJobs w job.runId).any
        (fun j => j.status.unfinished) = false := by
      rw [Bool.eq_false_iff]
      exact fun hany => hdone ((listRunJobs_any _).mp hany)
    have hfailed : ((e.markFailed w j err).store.listRunJobs w job.runId).any
        (fun j => j.status == .failed) = true := by
      refine (listRunJobs_any _).mpr ⟨j, _, hself, Job.fail_runId .., ?_⟩
      rw [Job.fail_status]
      split
      · -- a job that is put back keeps its run unfinished
        rename_i hretries
        refine absurd ⟨j, _, hself, Job.fail_runId .., ?_⟩ hdone
        rw [Job.fail_status, if_pos hretries]
        rfl
      · rfl
    -- an empty list of jobs would not conclude the run
    have hsome : ((e.markFailed w j err).store.listRunJobs w job.runId).isEmpty = false :=
      listRunJobs_isEmpty.mpr ⟨j, _, hself, Job.fail_runId ..⟩
    rw [Function.comp, Run.checked, if_pos (by rw [concluded, hnone, hsome]; rfl), hfailed]
    rfl
  · rw [hget]
    split
    · rename_i hk
      subst hk
      have hany : ((e.markFailed w j err).store.listRunJobs w job.runId).any
          (fun j => j.status.unfinished) = true := (listRunJobs_any _).mpr (hopen rfl)
      have hid : Run.checked w ((e.markFailed w j err).store.listRunJobs w job.runId) = id := by
        funext run
        refine if_neg ?_
        rw [concluded, hany, Bool.not_true, Bool.and_false]
        exact Bool.false_ne_true
      rw [hid, Option.map_id_fun]
      rfl
    · rfl

/-- What is left to do in a run that none of the lost jobs is of. -/
theorem unfinished_loseAll {r : RunId} (hnodup : (l.map Prod.snd).Nodup) (hno : ¬ Hits e l r) :
    Unfinished (e.loseAll l).store r ↔ Unfinished e.store r := by
  have hsame : ∀ k f, f.1 = r → (((e.loseAll l).store.getJob k).map Job.fate = some f ↔
      (e.store.getJob k).map Job.fate = some f) := by
    intro k f hr
    rw [getJob_loseAll l hnodup World.bare k]
    cases hget : e.store.getJob k with
    | none => rfl
    | some job =>
      rw [Option.map_some, Option.map_some]
      split
      · rename_i hmem
        have hne : job.runId ≠ r := fun hrun => hno ⟨k, hmem, job, hget, hrun⟩
        refine ⟨?_, ?_⟩
        · intro hf
          refine absurd ?_ hne
          rw [← hr, ← Option.some.inj hf]
          exact (Job.fail_runId ..).symm
        · intro hf
          refine absurd ?_ hne
          rw [← hr, ← Option.some.inj hf]
          rfl
      · rfl
  rw [unfinished_iff, unfinished_iff]
  refine ⟨?_, ?_⟩
  · intro h
    obtain ⟨k, f, hf, hr, hun⟩ := h
    exact ⟨k, f, (hsame k f hr).mp hf, hr, hun⟩
  · intro h
    obtain ⟨k, f, hf, hr, hun⟩ := h
    exact ⟨k, f, (hsame k f hr).mpr hf, hr, hun⟩

/-- The runs of lost jobs are marked failed if nothing of them is left to do in the
end, whatever the order; the other runs stay as they are. -/
theorem status_loseAll (l : List (World × JobId)) : ∀ {e : OrchestratorEngine}, Losable e l →
    ∀ k, (Hits e l k → ¬ Unfinished (e.loseAll l).store k →
        ((e.loseAll l).store.getRun k).map Run.status =
          (e.store.getRun k).map (fun _ => .failed)) ∧
      ((Hits e l k → Unfinished (e.loseAll l).store k) →
        ((e.loseAll l).store.getRun k).map Run.status = (e.store.getRun k).map Run.status) := by
  induction l with
  | nil =>
    intro e _ k
    refine ⟨?_, fun _ => rfl⟩
    intro h
    obtain ⟨j, hj, _⟩ := h
    cases hj
  | cons x l ih =>
    intro e h k
    have htail := losable_tail h
    obtain ⟨hnodup, hall⟩ := h
    rw [List.map_cons, List.nodup_cons] at hnodup
    obtain ⟨job, hjob, hst, hact⟩ := hall x.2 List.mem_cons_self
    obtain ⟨hfail, hkeep⟩ :=
      status_markFailed (w := x.1) "daemon restarted — process lost" hjob hact k
    obtain ⟨hfail', hkeep'⟩ := ih htail k
    show (_ → ¬ Unfinished ((e.markFailed x.1 x.2 _).loseAll l).store k → _) ∧ (_ → _)
    -- the other lost jobs are in the same runs as before
    have hhits : Hits e (x :: l) k ↔ k = job.runId ∨
        Hits (e.markFailed x.1 x.2 "daemon restarted — process lost") l k := by
      unfold Hits
      refine ⟨?_, ?_⟩
      · intro h
        obtain ⟨j, hj, job', hjob', hr⟩ := h
        rcases List.mem_cons.mp hj with rfl | hj
        · cases hjob.symm.trans hjob'
          exact Or.inl hr.symm
        · refine Or.inr ⟨j, hj, job', ?_, hr⟩
          rw [getJob_markFailed, if_neg (fun heq : j = x.2 => hnodup.1 (heq ▸ hj))]
          exact hjob'
      · intro h
        rcases h with rfl | ⟨j, hj, job', hjob', hr⟩
        · exact ⟨x.2, List.mem_cons_self, job, hjob, rfl⟩
        · rw [getJob_markFailed, if_neg (fun heq : j = x.2 => hnodup.1 (heq ▸ hj))] at hjob'
          exact ⟨j, List.mem_cons_of_mem x.2 hj, job', hjob', hr⟩
    by_cases hrest : Hits (e.markFailed x.1 x.2 "daemon restarted — process lost") l k
    · -- another job of the run is still running, so the first one decides nothing
      have hopen : Unfinished (e.markFailed x.1 x.2 "daemon restarted — process lost").store k := by
        obtain ⟨j, hj, job', hjob', hr⟩ := hrest
        obtain ⟨job'', hjob'', hst'', _⟩ := htail.2 j hj
        cases hjob'.symm.trans hjob''
        exact ⟨j, job', hjob', hr, by rw [hst'']; rfl⟩
      have hsame := hkeep (fun _ => hopen)
      refine ⟨fun _ hdone => (hfail' hrest hdone).trans (by rw [hsame]), fun hun => ?_⟩
      exact (hkeep' (fun _ => hun (hhits.mpr (Or.inr hrest)))).trans (by rw [hsame])
    · have hlater := hkeep' (fun hhit => absurd hhit hrest)
      have hiff := unfinished_loseAll htail.1 hrest
      refine ⟨fun hhit hdone => ?_, fun hun => ?_⟩
      · have hk := (hhits.mp hhit).resolve_right hrest
        exact hlater.trans (hfail hk (fun hopen => hdone (hiff.mpr hopen)))
      · have hsame := hkeep (fun hk => hiff.mp (hun (hhits.mpr (Or.inl hk))))
        exact hlater.trans (by rw [hsame])

end

/-! ## The start of the process -/

section
variable {w : World} {db : SqlitePersistence} {e : OrchestratorEngine} {ids : IdSupply}
  {l : List (World × JobId)}

theorem losable_of_running (hg : Grounded e) (hl : NamesRunning e.store l) : Losable e l := by
  refine ⟨hl.nodup, fun k hk => ?_⟩
  obtain ⟨job, hjob, hst⟩ := (hl.mem k).mp hk
  obtain ⟨r, hact⟩ := hg.supervised.running k job hjob hst
  exact ⟨job, hjob, hst, hact.trans (congrArg some (hg.supervised.home k r job hact hjob).symm)⟩

/-- Of the jobs, both ways make the same. -/
theorem fate_hydrate (hfull : FullyPersisted db e.store) (hl : NamesRunning e.store l)
    (k : JobId) : ((hydrate w (some db) ids).store.getJob k).map Job.fate =
      ((e.loseAll l).store.getJob k).map Job.fate := by
  rw [getJob_hydrate, hfull.job, getJob_loseAll l hl.nodup w k, Option.map_map]
  cases hget : e.store.getJob k with
  | none => rfl
  | some job =>
    rw [Option.map_some, Option.map_some, Function.comp, Job.recover]
    have hmem : k ∈ l.map Prod.snd ↔ job.status = .running := by
      rw [hl.mem k, hget]
      exact ⟨fun ⟨_, heq, hst⟩ => Option.some.inj heq ▸ hst, fun hst => ⟨job, rfl, hst⟩⟩
    by_cases hst : job.status = .running
    · rw [if_pos hst, if_pos (hmem.mpr hst)]
    · rw [if_neg hst, if_neg (fun h => hst (hmem.mp h))]

theorem queued_hydrate (hfull : FullyPersisted db e.store) (k : JobId) :
    k ∈ (hydrate w (some db) ids).readyQueue ↔
      ∃ job, e.store.getJob k = some job ∧ (job.status = .ready ∨ job.Requeued) := by
  rw [mem_readyQueue_hydrate, getJob_hydrate, hfull.job]
  cases hget : e.store.getJob k with
  | none => simp
  | some job =>
    have hready : (job.recover w).status = .ready ↔ job.status = .ready ∨ job.Requeued := by
      rw [Job.recover_status]
      unfold Job.Requeued
      cases job.status <;> cases job.retries <;> simp
    simp [hready]

/-- The jobs of a run that are left unfinished are those that were, without the ones
that have had their last attempt. -/
theorem unfinished_lost (hl : NamesRunning e.store l) (r : RunId) :
    Unfinished (e.loseAll l).store r ↔ ∃ k job, e.store.getJob k = some job ∧ job.runId = r ∧
      job.status.unfinished = true ∧ ¬ job.Exhausted := by
  have hfate : ∀ k job, e.store.getJob k = some job →
      ∀ f, f = (if k ∈ l.map Prod.snd then
        (job.fail World.bare "daemon restarted — process lost").fate else job.fate) →
      (f.1 = r ∧ f.2.1.unfinished = true ↔
        job.runId = r ∧ job.status.unfinished = true ∧ ¬ job.Exhausted) := by
    intro k job hget f h
    obtain rfl := h
    have hmem : k ∈ l.map Prod.snd ↔ job.status = .running := by
      rw [hl.mem k, hget]
      exact ⟨fun ⟨_, heq, hst⟩ => Option.some.inj heq ▸ hst, fun hst => ⟨job, rfl, hst⟩⟩
    unfold Job.Exhausted
    by_cases hst : job.status = .running
    · rw [if_pos (hmem.mpr hst)]
      show (job.fail _ _).runId = r ∧ (job.fail _ _).status.unfinished = true ↔ _
      rw [Job.fail_runId, Job.fail_status, hst]
      cases job.retries <;> simp [JobStatus.unfinished]
    · rw [if_neg (fun h => hst (hmem.mp h))]
      show job.runId = r ∧ job.status.unfinished = true ↔ _
      simp [hst]
  rw [unfinished_iff]
  refine ⟨?_, ?_⟩
  · intro h
    obtain ⟨k, f, hf, hrest⟩ := h
    rw [getJob_loseAll l hl.nodup World.bare k] at hf
    obtain ⟨job, hget, heq⟩ := Option.map_eq_some_iff.mp hf
    exact ⟨k, job, hget, (hfate k job hget f heq.symm).mp hrest⟩
  · intro h
    obtain ⟨k, job, hget, hrest⟩ := h
    refine ⟨k, _, ?_, (hfate k job hget _ rfl).mpr hrest⟩
    rw [getJob_loseAll l hl.nodup World.bare k, hget]
    rfl

/-- From a state that is fully persisted, the two ways agree exactly if it is
recoverable. -/
theorem sameFate_iff (hg : Grounded e) (hfull : FullyPersisted db e.store)
    (hl : NamesRunning e.store l) :
    SameFate (hydrate w (some db) ids) (e.loseAll l) ↔ Recoverable e := by
  have hlose := losable_of_running hg hl
  have hhits : ∀ r, Hits e l r ↔ ∃ k job, e.store.getJob k = some job ∧ job.runId = r ∧
      job.status = .running := by
    intro r
    refine ⟨?_, ?_⟩
    · intro h
      obtain ⟨k, hk, job, hjob, hr⟩ := h
      obtain ⟨job', hjob', hst⟩ := (hl.mem k).mp hk
      cases hjob.symm.trans hjob'
      exact ⟨k, job, hjob, hr, hst⟩
    · intro h
      obtain ⟨k, job, hjob, hr, hst⟩ := h
      exact ⟨k, (hl.mem k).mpr ⟨job, hjob, hst⟩, job, hjob, hr⟩
  have hqueue : ∀ k, k ∈ (e.loseAll l).readyQueue ↔ k ∈ e.readyQueue ∨
      ∃ job, e.store.getJob k = some job ∧ job.Requeued := by
    intro k
    rw [mem_readyQueue_loseAll l hl.nodup, hl.mem]
    refine or_congr_right ⟨?_, ?_⟩
    · intro h
      obtain ⟨⟨job, hjob, hst⟩, job', hjob', hretries⟩ := h
      cases hjob.symm.trans hjob'
      exact ⟨job, hjob, hst, hretries⟩
    · intro h
      obtain ⟨job, hjob, hst, hretries⟩ := h
      exact ⟨⟨job, hjob, hst⟩, job, hjob, hretries⟩
  refine ⟨?_, ?_⟩
  · intro hsame
    refine ⟨fun k hno => ?_, fun r run hrun hrunning hall => ?_⟩
    · have hk := hsame.queued k
      rw [queued_hydrate hfull, hqueue] at hk
      refine ⟨?_, ?_⟩
      · intro hmem
        -- what is queued now is queued after a restart because its row says so
        obtain ⟨job, hjob, hst | hreq⟩ := hk.mpr (Or.inl hmem)
        · exact ⟨job, hjob, hst⟩
        · exact absurd hreq (hno job hjob)
      · intro h
        obtain ⟨job, hjob, hst⟩ := h
        refine (hk.mp ⟨job, hjob, Or.inl hst⟩).resolve_right ?_
        intro h
        obtain ⟨job', hjob', hreq⟩ := h
        exact hno job' hjob' hreq
    -- of a run whose unfinished jobs all ran, none is put back
    · have hdone : ¬ Unfinished (e.loseAll l).store r := by
        rw [unfinished_lost hl]
        intro h
        obtain ⟨k, job, hjob, hr, hun, hnot⟩ := h
        exact hnot (hall k job hjob hr hun)
      have hst := (status_loseAll l hlose r).1 ((hhits r).mpr hrunning) hdone
      rw [← hsame.run r, getRun_hydrate, hfull.run, hrun] at hst
      exact Option.some.inj hst
  · intro hrec
    refine ⟨fate_hydrate hfull hl, fun r => ?_, fun k => ?_⟩
    · rw [getRun_hydrate, hfull.run]
      -- losing its jobs changes a run only where it ends it
      by_cases hended : Hits e l r ∧ ¬ Unfinished (e.loseAll l).store r
      · rw [(status_loseAll l hlose r).1 hended.1 hended.2]
        cases hrun : e.store.getRun r with
        | none => rfl
        | some run =>
          refine congrArg some (hrec.ended r run hrun ((hhits r).mp hended.1) ?_)
          intro k job hjob hr hun
          by_contra hnot
          exact hended.2 ((unfinished_lost hl r).mpr ⟨k, job, hjob, hr, hun, hnot⟩)
      · refine ((status_loseAll l hlose r).2 (fun hhit => ?_)).symm
        by_contra hopen
        exact hended ⟨hhit, hopen⟩
    · rw [queued_hydrate hfull, hqueue]
      by_cases hreq : ∃ job, e.store.getJob k = some job ∧ job.Requeued
      · obtain ⟨job, hjob, hr⟩ := hreq
        exact ⟨fun _ => Or.inr ⟨job, hjob, hr⟩, fun _ => ⟨job, hjob, Or.inr hr⟩⟩
      · have hk := hrec.queued k (fun job hjob hr => hreq ⟨job, hjob, hr⟩)
        refine ⟨?_, ?_⟩
        · intro h
          obtain ⟨job, hjob, hst | hr⟩ := h
          · exact Or.inl (hk.mpr ⟨job, hjob, hst⟩)
          · exact absurd ⟨job, hjob, hr⟩ hreq
        · intro h
          rcases h with hmem | hr
          · obtain ⟨job, hjob, hst⟩ := hk.mp hmem
            exact ⟨job, hjob, Or.inl hst⟩
          · exact absurd hr hreq

end

/-- In every state of the daemon whose store is fully persisted, the engine hydrated
from the database agrees with the live engine in which every running job is failed, in
any order, exactly if the state is recoverable. -/
theorem recovery_iff (persistent : Bool) (sandboxOverride : Option Bool) (capsule : Bool)
    (is : List (World × Input))
    (h : Meets Daemon.step Clocked (Daemon.off persistent sandboxOverride capsule) is)
    {db : SqlitePersistence}
    (hdb : (run Daemon.step (Daemon.off persistent sandboxOverride capsule) is).core.db = some db)
    (hfull : FullyPersisted db
      (run Daemon.step (Daemon.off persistent sandboxOverride capsule) is).engine.store)
    (w : World) {l : List (World × JobId)}
    (hl : NamesRunning
      (run Daemon.step (Daemon.off persistent sandboxOverride capsule) is).engine.store l) :
    SameFate ((run Daemon.step (Daemon.off persistent sandboxOverride capsule) is).core.act w
        .hydrate).engine
      ((run Daemon.step (Daemon.off persistent sandboxOverride capsule) is).engine.loseAll l) ↔
    Recoverable (run Daemon.step (Daemon.off persistent sandboxOverride capsule) is).engine := by
  have hsound := sound_run (sound_off persistent sandboxOverride capsule) h
  show SameFate (hydrate w _ _) _ ↔ _
  rw [hdb]
  exact sameFate_iff hsound.grounded hfull hl

/-- The planner's job is running for the third and last time. -/
def lastAttempt : List (World × Input) :=
  [(plannerWorld soloPlan, .start), (plannerWorld soloPlan, .command (.submitRun "task")),
    (plannerWorld soloPlan, failedEvent "job_1_1"),
    (plannerWorld soloPlan, failedEvent "job_1_1")]

/-- After a restart the job has failed and its run is running for ever. -/
theorem not_sameFate_lastAttempt :
    Meets Daemon.step Clocked (Daemon.off true none false) lastAttempt ∧
      (∃ db, (run Daemon.step (Daemon.off true none false) lastAttempt).core.db = some db ∧
        FullyPersisted db
          (run Daemon.step (Daemon.off true none false) lastAttempt).engine.store) ∧
      NamesRunning (run Daemon.step (Daemon.off true none false) lastAttempt).engine.store
        [(World.bare, "job_1_1")] ∧
      ¬ SameFate ((run Daemon.step (Daemon.off true none false) lastAttempt).core.act
          World.bare .hydrate).engine
        ((run Daemon.step (Daemon.off true none false) lastAttempt).engine.loseAll
          [(World.bare, "job_1_1")]) := by
  refine ⟨by decide, ?_, by decide, fun h => ?_⟩
  · obtain ⟨db, hdb⟩ := Option.isSome_iff_exists.mp (show
      (run Daemon.step (Daemon.off true none false) lastAttempt).core.db.isSome = true by decide)
    have hall : ∀ db ∈ (run Daemon.step (Daemon.off true none false) lastAttempt).core.db,
        FullyPersisted db
          (run Daemon.step (Daemon.off true none false) lastAttempt).engine.store := by decide
    exact ⟨db, hdb, hall db hdb⟩
  · exact absurd (h.run "run_1_0") (by decide)

/-- While the planner's job has attempts left, the two ways agree if the queue is as
it should be. -/
theorem recovery_iff_submitted : ∃ db,
    (run Daemon.step (Daemon.off true none false) (lastAttempt.take 2)).core.db = some db ∧
    (SameFate ((run Daemon.step (Daemon.off true none false) (lastAttempt.take 2)).core.act
        World.bare .hydrate).engine
      ((run Daemon.step (Daemon.off true none false) (lastAttempt.take 2)).engine.loseAll
        [(World.bare, "job_1_1")]) ↔
    Recoverable (run Daemon.step (Daemon.off true none false) (lastAttempt.take 2)).engine) := by
  obtain ⟨db, hdb⟩ := Option.isSome_iff_exists.mp (show
    (run Daemon.step (Daemon.off true none false) (lastAttempt.take 2)).core.db.isSome = true
    by decide)
  have hall : ∀ db ∈ (run Daemon.step (Daemon.off true none false) (lastAttempt.take 2)).core.db,
      FullyPersisted db
        (run Daemon.step (Daemon.off true none false) (lastAttempt.take 2)).engine.store := by
    decide
  exact ⟨db, hdb, recovery_iff true none false (lastAttempt.take 2) (by decide) hdb
    (hall db hdb) World.bare (by decide)⟩

end ZeptoPM
