import ZeptoPM.Capsule
import ZeptoPM.LateEvents

/- What a sandboxed worker can do to other jobs. The driver makes the terminal
   events with its own job id, but passes on heartbeats, progress and artifacts as
   the worker wrote them, and the daemon takes the ids in them at their word.
   `Owns` says which of these events leave the other jobs alone, and
   `sandboxed_iff` that it is exactly these. -/
namespace ZeptoPM
open OrchestratorEngine Daemon

/-! ## Values of several owners in one table -/

/-- Storing a value leaves the values of others alone exactly if it is there already, or
belongs to `j` and takes no one else's place. -/
theorem Table.put_others_iff {K V O : Type} [DecidableEq K] {key : V → K} (owner : V → O)
    (t : Table key) (v : V) (j : O) :
    (∀ u, owner u ≠ j → ((t.put v).get (key u) = some u ↔ t.get (key u) = some u)) ↔
      t.get (key v) = some v ∨ (owner v = j ∧ ∀ u, t.get (key v) = some u → owner u = j) := by
  refine ⟨?_, ?_⟩
  · intro h
    by_cases hsame : t.get (key v) = some v
    · exact Or.inl hsame
    · refine Or.inr ⟨?_, ?_⟩
      · by_contra hv
        exact hsame ((h v hv).mp (by rw [get_put, if_pos rfl]))
      · intro u hu
        by_contra hne
        have hkey := key_of_get hu
        have hput := (h u hne).mpr (hkey ▸ hu)
        rw [get_put, if_pos hkey] at hput
        cases hput
        exact hsame hu
  · intro h u hu
    rw [get_put]
    by_cases hkey : key u = key v
    · rw [if_pos hkey, hkey]
      rcases h with hsame | ⟨hv, hold⟩
      · rw [hsame]
      · refine ⟨?_, ?_⟩
        · intro hvu
          cases hvu
          exact absurd hv hu
        · intro hget
          exact absurd (hold u hget) hu
    · rw [if_neg hkey]

/-! ## Other jobs -/

/-- Heartbeat, record and artifacts of every other job are as before, in memory and in
the database. -/
structure OthersKept (j : JobId) (d d' : Daemon) : Prop where
  lastHeartbeat : ∀ k, k ≠ j → d'.engine.lastHeartbeat.get k = d.engine.lastHeartbeat.get k
  job : ∀ k, k ≠ j → d'.engine.store.getJob k = d.engine.store.getJob k
  artifact : ∀ a : Artifact, a.jobId ≠ j →
    (d'.engine.store.getArtifact a.artifactId = some a ↔
      d.engine.store.getArtifact a.artifactId = some a)
  artifactRow : ∀ row : ArtifactRow, row.jobId ≠ j →
    (d'.core.db.bind (·.artifacts.get row.artifactId) = some row ↔
      d.core.db.bind (·.artifacts.get row.artifactId) = some row)

/-- The events the driver passes on. -/
def Reports (event : Json) : Prop :=
  event.strOr "type" "" = "heartbeat" ∨ event.strOr "type" "" = "progress" ∨
    event.strOr "type" "" = "artifact_produced"

/-- The heartbeat of the event's job stays as it is. -/
def NoBeat (w : World) (d : Daemon) (event : Json) : Prop :=
  d.engine.activeJobs.contains (event.strOr "job_id" "") = false ∨
    d.engine.lastHeartbeat.get (event.strOr "job_id" "") = some w.instant

/-- The artifact is on record already, or is one of `j` under an id that no one else has. -/
def OwnArtifact (w : World) (d : Daemon) (j : JobId) (event : Json) : Prop :=
  let a := d.announcedArtifact w event
  (d.engine.store.getArtifact a.artifactId = some a ∨
    a.jobId = j ∧ ∀ a', d.engine.store.getArtifact a.artifactId = some a' → a'.jobId = j) ∧
  ∀ db, d.core.db = some db →
    db.artifacts.get a.artifactId = some a.toRow ∨
      a.jobId = j ∧ ∀ row, db.artifacts.get a.artifactId = some row → row.jobId = j

/-- The event is about `j` and nothing that belongs to another job, or changes nothing. -/
def Owns (w : World) (d : Daemon) (j : JobId) (event : Json) : Prop :=
  if event.strOr "type" "" = "artifact_produced" then OwnArtifact w d j event
  else event.strOr "job_id" "" = j ∨ NoBeat w d event

section
variable {w : World} {d : Daemon} {j : JobId} {event : Json}

theorem OthersKept.of_engine {d' : Daemon} (he : d'.engine = d.engine)
    (hdb : d'.core.db = d.core.db) : OthersKept j d d' where
  lastHeartbeat := fun _ _ => by rw [he]
  job := fun _ _ => by rw [he]
  artifact := fun _ _ => by rw [he]
  artifactRow := fun _ _ => by rw [hdb]

/-- A heartbeat leaves the other jobs alone exactly if it is one of `j`, or none. -/
theorem othersKept_recordHeartbeat_iff (w : World) (d : Daemon) (j jobId : JobId) :
    OthersKept j d (d.act w (.call "" (.recordHeartbeat jobId))) ↔
      jobId = j ∨ d.engine.activeJobs.contains jobId = false ∨
        d.engine.lastHeartbeat.get jobId = some w.instant := by
  have hengine : (d.act w (.call "" (.recordHeartbeat jobId))).engine =
      d.engine.recordHeartbeat w jobId := rfl
  refine ⟨?_, ?_⟩
  · intro h
    by_contra hno
    rw [not_or, not_or, Bool.not_eq_false] at hno
    obtain ⟨hj, hactive, hbeat⟩ := hno
    have hget := h.lastHeartbeat jobId hj
    rw [hengine, recordHeartbeat, if_pos hactive, HashMap.get_insert, if_pos rfl] at hget
    exact hbeat hget.symm
  · intro h
    refine ⟨?_, fun k _ => ?_, fun a _ => ?_, fun row _ => Iff.rfl⟩
    · intro k hk
      rw [hengine, recordHeartbeat]
      split
      · rename_i hactive
        rw [HashMap.get_insert]
        split
        · rename_i hkj
          subst hkj
          rcases h with hj | hno | hbeat
          · exact absurd hj hk
          · rw [hno] at hactive
            cases hactive
          · exact hbeat.symm
        · rfl
      · rfl
    · rw [hengine, recordHeartbeat]
      split <;> rfl
    · rw [hengine, recordHeartbeat]
      split <;> rfl

theorem othersKept_artifactProduced_iff (w : World) (d : Daemon) (j : JobId) (event : Json) :
    OthersKept j d (d.artifactProduced w event) ↔ OwnArtifact w d j event := by
  have hstore := Table.put_others_iff Artifact.jobId d.engine.store.artifacts
    (d.announcedArtifact w event) j
  refine ⟨?_, ?_⟩
  · intro h
    refine ⟨hstore.mp h.artifact, ?_⟩
    intro db hdb
    refine (Table.put_others_iff ArtifactRow.jobId db.artifacts
      (d.announcedArtifact w event).toRow j).mp ?_
    intro row hrow
    have hkept := h.artifactRow row hrow
    rw [show (d.artifactProduced w event).core.db =
      d.core.db.map (·.persistArtifact (d.announcedArtifact w event)) from rfl, hdb] at hkept
    exact hkept
  · intro h
    refine ⟨fun _ _ => rfl, fun _ _ => rfl, hstore.mpr h.1, ?_⟩
    intro row hrow
    rw [show (d.artifactProduced w event).core.db =
      d.core.db.map (·.persistArtifact (d.announcedArtifact w event)) from rfl]
    cases hdb : d.core.db with
    | none => exact Iff.rfl
    | some db => exact (Table.put_others_iff ArtifactRow.jobId db.artifacts _ j).mpr (h.2 db hdb) row hrow

/-- Handling a reported event leaves the other jobs alone exactly if `j` owns the event. -/
theorem othersKept_step_iff (hreports : Reports event) (w : World) (d : Daemon) (j : JobId) :
    OthersKept j d (d.step (w, .event event)) ↔ (d.alive = true → Owns w d j event) := by
  cases halive : d.alive with
  | false =>
    rw [step_of_dead rfl halive]
    simp only [Bool.false_eq_true, false_imp_iff, iff_true]
    exact .of_engine rfl rfl
  | true =>
    obtain ⟨d₀, hd₀⟩ : ∃ d₀ : Daemon, d₀ = { d with sent := [], calls := [] } := ⟨_, rfl⟩
    -- the effects of the last input, which are forgotten first, do not matter here
    have hfresh : ∀ d', OthersKept j d d' ↔ OthersKept j d₀ d' := by
      subst hd₀
      exact fun d' => ⟨fun h => ⟨h.1, h.2, h.3, h.4⟩, fun h => ⟨h.1, h.2, h.3, h.4⟩⟩
    have howns : Owns w d j event ↔ Owns w d₀ j event := by
      subst hd₀
      exact Iff.rfl
    rw [hfresh, howns, step_of_alive hd₀ halive]
    unfold Owns handle handleEvent
    rcases hreports with h | h | h
    all_goals simp only [h, true_imp_iff]
    · exact othersKept_recordHeartbeat_iff ..
    · exact othersKept_recordHeartbeat_iff ..
    · exact othersKept_artifactProduced_iff ..

end

/-! ## What the driver sends -/

namespace CapsuleDriver

/-- Every terminal event that has been sent names the driver's job. -/
def NamesJob (c : CapsuleDriver) : Prop :=
  ∀ event ∈ c.sent, Terminal event → event.strOr "job_id" "" = c.jobId

theorem NamesJob.send {c : CapsuleDriver} {event : Json} (h : c.NamesJob)
    (hevent : Terminal event → event.strOr "job_id" "" = c.jobId) : (c.send event).NamesJob := by
  intro e he hterm
  rcases List.mem_append.mp he with hmem | hnew
  · exact h e hmem hterm
  · rw [List.mem_singleton.mp hnew] at hterm ⊢
    exact hevent hterm

theorem NamesJob.finish {c : CapsuleDriver} (h : c.NamesJob) : c.finish.NamesJob := h

theorem namesJob_handleLine {c : CapsuleDriver} (h : c.NamesJob) (event : Json) :
    (c.handleLine event).NamesJob := by
  have hother : ∀ t e, Json.strOr e "type" "" = t → t ≠ "job_completed" → t ≠ "job_failed" →
      Terminal e → e.strOr "job_id" "" = c.jobId := by
    intro t e ht hc hf hterm
    unfold Terminal at hterm
    rw [ht] at hterm
    rcases hterm with h | h
    · exact absurd h hc
    · exact absurd h hf
  unfold handleLine
  split
  · rename_i ht
    exact h.send (hother _ _ ht (by decide) (by decide))
  · rename_i ht
    exact h.send (hother _ _ ht (by decide) (by decide))
  · rename_i ht
    refine h.send (hother "artifact_produced" _ ?_ (by decide) (by decide))
    rw [translate_strOr (by decide), ht]
  · exact (h.send fun _ => rfl).finish
  · exact (h.send fun _ => rfl).finish
  · exact h

theorem namesJob_step {c : CapsuleDriver} (h : c.NamesJob) (i : CapsuleInput) :
    (c.step i).NamesJob := by
  unfold step
  split
  · cases i with
    | line event =>
      cases event with
      | none => exact h
      | some event => exact namesJob_handleLine h event
    | message => exact h
    | stop => exact h.finish
    | endOfOutput report => exact (h.send fun _ => rfl).finish
    | readError e => exact (h.send fun _ => rfl).finish
  · exact h

theorem namesJob_run {c : CapsuleDriver} (h : c.NamesJob) (is : List CapsuleInput) :
    (run step c is).NamesJob := by
  induction is generalizing c with
  | nil => exact h
  | cons i is ih => exact ih (namesJob_step h i)

theorem namesJob_spawnCapsuleJob (config : Config) (job : Job) (start : CapsuleStart) :
    (spawnCapsuleJob config job start).NamesJob := by
  have hnew : (CapsuleDriver.mk job.jobId (guestWorkspacePath config job) job.workspaceDir true
      []).NamesJob := fun e he => by cases he
  cases start with
  | spawned => exact hnew
  | _ => exact (hnew.send fun _ => rfl).finish

end CapsuleDriver

/-! ## A worker and the daemon -/

/-- If the input is an event that the driver has passed on, the other jobs are left alone. -/
def SparesOthers (j : JobId) (forwarded : List Json) (d : Daemon) (x : World × Input) : Prop :=
  ∀ event ∈ forwarded, Reports event → x.2 = .event event → OthersKept j d (d.step x)

/-- If the input is an event that the driver has passed on, `j` owns it. -/
def OwnReport (j : JobId) (forwarded : List Json) (d : Daemon) (x : World × Input) : Prop :=
  ∀ event ∈ forwarded, Reports event → x.2 = .event event → d.alive = true → Owns x.1 d j event

/-- Whatever a sandboxed worker prints, the terminal events of its driver name its job.
In every run of the daemon the events that the driver passes on leave the other jobs
alone exactly if each of them is owned by the job in the state that takes it. -/
theorem sandboxed_iff (config : Config) (job : Job) (start : CapsuleStart)
    (is : List CapsuleInput) (d : Daemon) (js : List (World × Input)) :
    let c := run CapsuleDriver.step (.spawnCapsuleJob config job start) is
    (∀ event ∈ c.sent, Terminal event → event.strOr "job_id" "" = job.jobId) ∧
      (Meets Daemon.step (SparesOthers job.jobId c.sent) d js ↔
        Meets Daemon.step (OwnReport job.jobId c.sent) d js) := by
  intro c
  refine ⟨?_, ?_⟩
  · intro event hevent hterm
    have hnames : c.NamesJob := CapsuleDriver.namesJob_run
      (CapsuleDriver.namesJob_spawnCapsuleJob config job start) is
    rw [hnames event hevent hterm, (CapsuleDriver.same_run _ is).jobId]
    exact (CapsuleDriver.spawnCapsuleJob_same config job start).1
  · have hstep : ∀ d x, SparesOthers job.jobId c.sent d x ↔ OwnReport job.jobId c.sent d x := by
      intro d x
      obtain ⟨w, i⟩ := x
      refine forall₃_congr fun event hevent hreports => ?_
      refine ⟨?_, ?_⟩
      · intro h hi
        subst hi
        exact (othersKept_step_iff hreports w d job.jobId).mp (h rfl)
      · intro h hi
        have hi' : i = .event event := hi
        subst hi'
        exact (othersKept_step_iff hreports w d job.jobId).mpr (h rfl)
    exact ⟨Meets.mono fun d x => (hstep d x).mp, Meets.mono fun d x => (hstep d x).mpr⟩

/-! ## A heartbeat for another job -/

/-- Two runs are submitted, and their planners run in capsules. -/
def twoCapsules : List (World × Input) :=
  [({ plannerWorld soloPlan with startConfig := some namespaceConfig }, .start),
    (plannerWorld soloPlan, .command (.submitRun "first")),
    (plannerWorld soloPlan, .command (.submitRun "second"))]

/-- The worker of the second planner keeps the first one's heartbeat fresh. -/
theorem not_sparesOthers_heartbeat :
    let d := run Daemon.step (Daemon.off true none true) twoCapsules
    let w := { World.bare with now := 1, instant := 7 }
    d.alive = true ∧ d.engine.activeJobs.contains "job_1_1" = true ∧
      ∃ job, d.engine.store.getJob "job_1_3" = some job ∧
        let c := run CapsuleDriver.step (.spawnCapsuleJob namespaceConfig job .spawned)
          [.line (some (heartbeat "job_1_1"))]
        ¬ Meets Daemon.step (SparesOthers job.jobId c.sent) d [(w, .event (heartbeat "job_1_1"))] := by
  intro d w
  have hsome : (d.engine.store.getJob "job_1_3").isSome = true := by decide
  obtain ⟨job, hjob⟩ := Option.isSome_iff_exists.mp hsome
  refine ⟨by decide, by decide, job, hjob, ?_⟩
  intro c hisolated
  have hid : job.jobId = "job_1_3" := Table.key_of_get hjob
  have hkept := hisolated.1 (heartbeat "job_1_1") List.mem_cons_self (Or.inl rfl) rfl
  have hbeat := hkept.lastHeartbeat "job_1_1" (by rw [hid]; decide)
  exact absurd hbeat (by decide)

end ZeptoPM
