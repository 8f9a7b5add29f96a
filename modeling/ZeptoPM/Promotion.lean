import ZeptoPM.Scheduler

/- A promotion scan as a whole. Whatever order the job map is walked in, the scan
   makes ready the jobs that were promotable when it began and leaves the rest of
   the store as it was, so two scans of one store agree. A job it makes ready
   completes nothing and no longer waits, so a scan that follows finds nothing left
   to promote: `promoteUnblockedJobs_exact`. -/
namespace ZeptoPM
open RunStore

section
variable (w w' : World) (s : RunStore) (r : RunId)

theorem promotable_iff {job : Job} : Promotable s r job ↔ job.runId = r ∧ job.status = .pending ∧
    ∀ d ∈ job.dependsOn, ∃ dep, s.getJob d = some dep ∧ dep.status = .completed := by
  unfold Promotable
  simp only [isCompleted_iff]

/-- A scan completes no job and undoes no completion. -/
theorem isCompleted_promote (k : JobId) :
    (promoteUnblockedJobs w s r).2.isCompleted k = s.isCompleted k := by
  unfold isCompleted
  rw [getJob_promote]
  cases s.getJob k with
  | none => rfl
  | some job =>
    simp only [Option.map_some, Option.getD_some, promoted]
    split
    · rename_i hp
      rw [Job.setReady_status, hp.2.1]
      rfl
    · rfl

/-- A job is stored after the scan as it was before, made ready if the scan returned it. -/
theorem getJob_promote_ids (k : JobId) : (promoteUnblockedJobs w s r).2.getJob k =
    if k ∈ (promoteUnblockedJobs w s r).1 then (s.getJob k).map Job.setReady
    else s.getJob k := by
  rw [getJob_promote]
  cases hget : s.getJob k with
  | none =>
    rw [Option.map_none, Option.map_none]
    split <;> rfl
  | some job =>
    have hmem : k ∈ (promoteUnblockedJobs w s r).1 ↔ Promotable s r job := by
      rw [mem_promote, hget]
      simp
    unfold promoted
    simp only [hmem, Option.map_some]
    split <;> rfl

/-- Nothing is promotable where a scan has just been. -/
theorem not_promotable_after {k : JobId} {job : Job}
    (hget : (promoteUnblockedJobs w s r).2.getJob k = some job) :
    ¬ Promotable (promoteUnblockedJobs w s r).2 r job := by
  intro hp
  obtain ⟨hr, hst, hdeps⟩ := hp
  rw [getJob_promote, Option.map_eq_some_iff] at hget
  obtain ⟨old, hold, rfl⟩ := hget
  unfold promoted at hr hst hdeps
  split at hst
  · -- a job the scan took is ready
    rw [Job.setReady_status] at hst
    cases hst
  · -- and one it left waits for a job that is still not completed
    rename_i hnot
    rw [if_neg hnot] at hr hdeps
    refine hnot ⟨hr, hst, ?_⟩
    intro d hd
    rw [← isCompleted_promote w s r]
    exact hdeps d hd

theorem promote_empty {s : RunStore} (h : ∀ k job, s.getJob k = some job → ¬ Promotable s r job) :
    promoteUnblockedJobs w s r = ([], s) := by
  have hskip : ∀ (l : List (JobId × List JobId)),
      (∀ e ∈ l, (e.2.all s.isCompleted && (s.getJob e.1).isSome) = false) →
      promoteScan l s = ([], s) := by
    intro l
    induction l with
    | nil => intro _; rfl
    | cons e l ih =>
      intro hl
      have he := hl e List.mem_cons_self
      unfold promoteScan
      rw [if_neg (by rw [he]; exact Bool.false_ne_true)]
      exact ih (fun e' he' => hl e' (List.mem_cons_of_mem _ he'))
  refine hskip _ ?_
  intro e he
  obtain ⟨job, hjob, rfl⟩ := List.mem_map.mp he
  obtain ⟨hlist, hst⟩ := List.mem_filter.mp hjob
  obtain ⟨hget, hr⟩ := mem_listRunJobs.mp hlist
  rw [← Bool.not_eq_true]
  intro hready
  rw [Bool.and_eq_true, List.all_eq_true] at hready
  exact h job.jobId job hget ⟨hr, beq_iff_eq.mp hst, hready.1⟩

/-- In whatever order the jobs are walked, one scan promotes each pending job of the run whose
dependencies all exist and are completed, once, changes nothing else, and leaves nothing to
promote. -/
theorem promoteUnblockedJobs_exact :
    (promoteUnblockedJobs w s r).1.Nodup ∧
    (∀ k, k ∈ (promoteUnblockedJobs w s r).1 ↔
      ∃ job, s.getJob k = some job ∧ job.runId = r ∧ job.status = .pending ∧
        ∀ d ∈ job.dependsOn, ∃ dep, s.getJob d = some dep ∧ dep.status = .completed) ∧
    (∀ k, (promoteUnblockedJobs w s r).2.getJob k =
      if k ∈ (promoteUnblockedJobs w s r).1 then
        (s.getJob k).map (fun job => { job with status := .ready })
      else s.getJob k) ∧
    ((promoteUnblockedJobs w s r).2.runs = s.runs ∧
      (promoteUnblockedJobs w s r).2.channels = s.channels ∧
      (promoteUnblockedJobs w s r).2.artifacts = s.artifacts) ∧
    ((promoteUnblockedJobs w' s r).1.Perm (promoteUnblockedJobs w s r).1 ∧
      ∀ k, (promoteUnblockedJobs w' s r).2.getJob k = (promoteUnblockedJobs w s r).2.getJob k) ∧
    promoteUnblockedJobs w' (promoteUnblockedJobs w s r).2 r =
      ([], (promoteUnblockedJobs w s r).2) := by
  refine ⟨promote_nodup w s r, ?_, getJob_promote_ids w s r, promoteScan_frame _ s, ⟨?_, ?_⟩, ?_⟩
  · intro k
    rw [mem_promote]
    simp only [promotable_iff]
  · rw [List.perm_ext_iff_of_nodup (promote_nodup w' s r) (promote_nodup w s r)]
    intro k
    rw [mem_promote, mem_promote]
  · intro k
    rw [getJob_promote, getJob_promote]
  · exact promote_empty w' r (fun _ _ hget => not_promotable_after w s r hget)

end

end ZeptoPM
