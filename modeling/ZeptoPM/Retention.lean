import ZeptoPM.InForce
import ZeptoPM.Isolation
import ZeptoPM.Lifetimes
import ZeptoPM.Queries
import ZeptoPM.Timeouts
import ZeptoPM.WriteThrough

/- How long records last. Between two steps the database has a row of every run and job that
   the engine holds, and no crash and no panic takes a row away (`records_last`). What does is
   the cleanup at a poll tick: it removes the runs that are over and were last written longer
   ago than the config says, those and no others, and removes them from the engine, from the
   database and with the files of their artifacts (`cleanup_exact`). -/
namespace ZeptoPM
open OrchestratorEngine Daemon

/-! ## Calls keep records -/

section
variable {w : World} {e : OrchestratorEngine} {db : Option SqlitePersistence} {r k : String}
  {f : Call}

theorem job_after (hg : Grounded e) (hl : Legal ⟨e, db⟩ (w, .call r f)) {job : Job}
    (hk : e.store.getJob k = some job) :
    ∃ job', (f.apply w e).store.getJob k = some job' ∧ job'.identity = job.identity := by
  have hthere : ∃ job', (f.apply w e).store.getJob k = some job' := by
    rcases (touches_call hg hl).job k with hsame | ⟨job', hjob', _⟩
    · exact ⟨job, hsame.trans hk⟩
    · exact ⟨job', hjob'⟩
  obtain ⟨job', hjob'⟩ := hthere
  refine ⟨job', hjob', ?_⟩
  rcases job_before hg hl hjob' with ⟨old, hold, hid⟩ | ⟨hnew, _⟩
  · cases hold.symm.trans hk
    exact hid
  · exact absurd (hg.supervised.jobIssued k job hk) hnew

end

theorem Job.runId_of_identity {job job' : Job} (h : job'.identity = job.identity) :
    job'.runId = job.runId := show job'.identity.runId = job.identity.runId by rw [h]

/-! ## A row for every record -/

/-- A run or a job without a row is of a run that is still to be persisted. -/
structure Stored (rest : List (World × Action)) (db : SqlitePersistence)
    (e : OrchestratorEngine) : Prop where
  run : ∀ k run, e.store.getRun k = some run → (∃ row, db.getRun k = some row) ∨ Awaited k rest
  job : ∀ k job, e.store.getJob k = some job →
    (∃ row, db.getJob k = some row) ∨ Awaited job.runId rest

theorem awaited_later {x : World × Action} {rest : List (World × Action)} {r : RunId}
    (h : Awaited r (x :: rest)) (hx : x.2.persists ≠ some r) : Awaited r rest :=
  (h.resolve_left hx).2

section
variable {w : World} {c : Core} {rest : List (World × Action)}

theorem stored_call {r : RunId} {f : Call} (hs : Sound c) (hl : Legal c (w, .call r f))
    (hset : Settled ((w, .call r f) :: rest)) {db : SqlitePersistence}
    (h : Stored ((w, .call r f) :: rest) db c.engine) :
    Stored rest db (f.apply w c.engine) := by
  obtain ⟨e, cdb⟩ := c
  refine ⟨?_, ?_⟩
  · intro k run' hk
    rcases run_before hs.grounded hl hk with ⟨run, hrun, _⟩ | ⟨_, howes⟩
    · exact (h.run k run hrun).imp_right (fun ha => awaited_later ha (fun h => by cases h))
    · exact Or.inr (hset.1 k howes)
  · intro k job' hk
    rcases job_before hs.grounded hl hk with ⟨job, hjob, hid⟩ | ⟨_, howes⟩
    · rw [Job.runId_of_identity hid]
      exact (h.job k job hjob).imp_right (fun ha => awaited_later ha (fun h => by cases h))
    · exact Or.inr (hset.1 _ howes)

theorem stored_persistRunState {r : RunId} {db : SqlitePersistence} {e : OrchestratorEngine}
    (h : Stored ((w, .persistRunState r) :: rest) db e) :
    Stored rest (db.persistRunState w e.store r) e := by
  refine ⟨?_, ?_⟩
  · intro k run hk
    rw [SqlitePersistence.getRun_persistRunState]
    split
    · exact Or.inl ⟨run, hk⟩
    · rename_i hnot
      refine (h.run k run hk).imp_right fun ha => awaited_later ha fun heq => ?_
      exact hnot ⟨(Option.some.inj heq).symm, by rw [hk]; rfl⟩
  · intro k job hk
    rw [SqlitePersistence.getJob_persistRunState]
    split
    · exact Or.inl ⟨job, hk⟩
    · rename_i hnot
      refine (h.job k job hk).imp_right fun ha => awaited_later ha fun heq => ?_
      rw [hk] at hnot
      exact hnot heq.symm

theorem stored_expire {r : RunId} {db : SqlitePersistence} {e : OrchestratorEngine}
    (hi : Image db e) (h : Stored ((w, .expire r) :: rest) db e) :
    Stored rest (db.deleteRun w r) (e.removeRun w r) := by
  -- nothing is awaited across a removal
  have hnone : ∀ k, ¬ Awaited k ((w, Action.expire r) :: rest) := by
    rintro k (heq | ⟨hfalse, _⟩)
    · cases heq
    · cases hfalse
  refine ⟨?_, ?_⟩
  · intro k run hk
    rw [getRun_expire] at hk
    rw [SqlitePersistence.getRun_deleteRun]
    split at hk
    · cases hk
    · rename_i hne
      rw [if_neg hne]
      exact Or.inl ((h.run k run hk).resolve_right (hnone k))
  · intro k job hk
    obtain ⟨hjob, hne⟩ := getJob_expire.mp hk
    obtain ⟨row, hrow⟩ := (h.job k job hjob).resolve_right (hnone _)
    obtain ⟨⟨job', hjob', hr⟩, _⟩ := hi.job k row hrow
    cases hjob'.symm.trans hjob
    exact Or.inl ⟨row, SqlitePersistence.getJob_deleteRun.mpr ⟨hrow, hr ▸ hne⟩⟩

theorem stored_hydrate {db : SqlitePersistence} {ids : IdSupply} :
    Stored rest db (hydrate w (some db) ids) := by
  refine ⟨?_, ?_⟩
  · intro k run hk
    rw [getRun_hydrate] at hk
    exact Or.inl ⟨run, hk⟩
  · intro k job hk
    rw [getJob_hydrate] at hk
    obtain ⟨row, hrow, _⟩ := Option.map_eq_some_iff.mp hk
    exact Or.inl ⟨row, hrow⟩

/-- The records that lack a row, in view of the actions to come. -/
def Storing (c : Core) (rest : List (World × Action)) : Prop :=
  Sound c ∧ Settled rest ∧ ∀ db, c.db = some db → Stored rest db c.engine

theorem storing_act (c : Core) (x : World × Action) (rest : List (World × Action))
    (h : Storing c (x :: rest)) (hl : Legal c x) : Storing (coreStep c x) rest := by
  obtain ⟨w, a⟩ := x
  obtain ⟨hs, hset, hst⟩ := h
  refine ⟨sound_act hs hl, hset.2, ?_⟩
  intro db hdb
  have hsame : ∀ db, Stored ((w, a) :: rest) db c.engine → (∀ r, a.persists ≠ some r) →
      Stored rest db c.engine := by
    intro db h hp
    exact ⟨fun k run hk => (h.run k run hk).imp_right (fun ha => awaited_later ha (hp k)),
      fun k job hk => (h.job k job hk).imp_right (fun ha => awaited_later ha (hp _))⟩
  cases a with
  | call r f => exact stored_call hs hl hset (hst db hdb)
  | persistRunState r =>
    obtain ⟨db₀, hdb₀, rfl⟩ := Option.map_eq_some_iff.mp hdb
    exact stored_persistRunState (hst db₀ hdb₀)
  | persistArtifact art =>
    obtain ⟨db₀, hdb₀, rfl⟩ := Option.map_eq_some_iff.mp hdb
    obtain ⟨hrun, hjob⟩ := hsame db₀ (hst db₀ hdb₀) nofun
    exact ⟨hrun, hjob⟩
  | genId pre =>
    obtain ⟨hrun, hjob⟩ := hsame db (hst db hdb) nofun
    exact ⟨hrun, hjob⟩
  | expire r =>
    obtain ⟨db₀, hdb₀, rfl⟩ := Option.map_eq_some_iff.mp hdb
    exact stored_expire (hs.image db₀ hdb₀) (hst db₀ hdb₀)
  | hydrate =>
    have hdb' : c.db = some db := hdb
    show Stored rest db (hydrate w c.db c.engine.ids)
    rw [hdb']
    exact stored_hydrate

end

/-- The engine and the database hold the same runs and the same jobs. -/
structure Core.Agrees (c : Core) (db : SqlitePersistence) : Prop where
  run : ∀ k, (db.getRun k).isSome = (c.engine.store.getRun k).isSome
  job : ∀ k, (db.getJob k).isSome = (c.engine.store.getJob k).isSome

theorem agrees_of_stored {c : Core} {db : SqlitePersistence} (hi : Image db c.engine)
    (h : Stored [] db c.engine) : c.Agrees db := by
  refine ⟨fun k => Bool.eq_iff_iff.mpr ?_, fun k => Bool.eq_iff_iff.mpr ?_⟩
  · rw [Option.isSome_iff_exists, Option.isSome_iff_exists]
    exact ⟨fun ⟨run, hrun⟩ => hi.run k run hrun,
      fun ⟨run, hrun⟩ => (h.run k run hrun).resolve_right id⟩
  · rw [Option.isSome_iff_exists, Option.isSome_iff_exists]
    exact ⟨fun ⟨row, hrow⟩ => (hi.job k row hrow).1.imp (fun _ h => h.1),
      fun ⟨job, hjob⟩ => (h.job k job hjob).resolve_right id⟩

/-- While the process is alive, the two agree between any two steps. -/
theorem agrees_run (persistent : Bool) (sandboxOverride : Option Bool) (capsule : Bool)
    {is : List (World × Input)}
    (h : Meets Daemon.step Clocked (Daemon.off persistent sandboxOverride capsule) is)
    (halive : (run Daemon.step (Daemon.off persistent sandboxOverride capsule) is).alive = true) :
    ∀ db, (run Daemon.step (Daemon.off persistent sandboxOverride capsule) is).core.db = some db →
      (run Daemon.step (Daemon.off persistent sandboxOverride capsule) is).core.Agrees db := by
  have hboot : ∀ c w, Sound c → True → True → ∀ db, (c.act w .hydrate).db = some db →
      Stored [] db (c.act w .hydrate).engine := by
    intro c w _ _ _ db hdb
    have hdb' : c.db = some db := hdb
    show Stored [] db (hydrate w c.db c.engine.ids)
    rw [hdb']
    exact stored_hydrate
  have hstep : ∀ c l, Sound c → True → Meets coreStep Legal c l → Settled l →
      (∀ db, c.db = some db → Stored [] db c.engine) → MeetsRest coreStep (fun _ _ _ => True) c l →
      ∀ db, (run coreStep c l).db = some db → Stored [] db (run coreStep c l).engine := by
    intro c l hs _ hl hset hst hrest
    have hstart : Storing c l := by
      refine ⟨hs, hset, fun db hdb => ?_⟩
      obtain ⟨hrun, hjob⟩ := hst db hdb
      exact ⟨fun k run hk => Or.inl ((hrun k run hk).resolve_right id),
        fun k job hk => Or.inl ((hjob k job hk).resolve_right id)⟩
    exact (run_invariant_rest (fun c x rest hc hg => storing_act c x rest hc hg.1) hstart
      (MeetsRest.and_meets hl hrest)).2.2
  have hguard : Meets Daemon.step (GuardedRest (fun _ _ _ => True))
      (Daemon.off persistent sandboxOverride capsule) is :=
    h.mono fun d x hx => ⟨hx, MeetsRest.trivial ..⟩
  have hstored := alive_run (K := fun _ _ _ => True) (Q := fun _ => True)
    (fun _ _ _ _ _ => True.intro) hboot hstep (sound_off persistent sandboxOverride capsule)
    True.intro (fun h => by cases h) hguard halive
  have hs := sound_run (sound_off persistent sandboxOverride capsule) h
  exact fun db hdb => agrees_of_stored (hs.image db hdb) (hstored db hdb)

/-! ## Rows stay -/

namespace Core

/-- The database has a row of the run. -/
def HasRun (c : Core) (k : RunId) : Prop := ∃ db, c.db = some db ∧ ∃ row, db.getRun k = some row

/-- The database has a row of the job. -/
def HasJob (c : Core) (k : JobId) : Prop := ∃ db, c.db = some db ∧ ∃ row, db.getJob k = some row

/-- No row of the one database is missing in the other. -/
structure RowsKept (c c' : Core) : Prop where
  run : ∀ k, c.HasRun k → c'.HasRun k
  job : ∀ k, c.HasJob k → c'.HasJob k

end Core

theorem rowsKept_act (c : Core) (x : World × Action) (hx : ∀ r, x.2 ≠ .expire r) :
    c.RowsKept (coreStep c x) := by
  obtain ⟨w, a⟩ := x
  cases a with
  | call r f => exact ⟨fun _ h => h, fun _ h => h⟩
  | genId pre => exact ⟨fun _ h => h, fun _ h => h⟩
  | hydrate => exact ⟨fun _ h => h, fun _ h => h⟩
  | expire r => exact absurd rfl (hx r)
  | persistArtifact art =>
    refine ⟨fun k h => ?_, fun k h => ?_⟩ <;> obtain ⟨db, hdb, hrow⟩ := h <;>
      exact ⟨db.persistArtifact art, Option.map_eq_some_iff.mpr ⟨db, hdb, rfl⟩, hrow⟩
  | persistRunState r =>
    refine ⟨fun k h => ?_, fun k h => ?_⟩ <;> obtain ⟨db, hdb, row, hrow⟩ := h <;>
      refine ⟨db.persistRunState w c.engine.store r,
        Option.map_eq_some_iff.mpr ⟨db, hdb, rfl⟩, ?_⟩
    · rw [SqlitePersistence.getRun_persistRunState]
      split
      · rename_i hsome
        exact Option.isSome_iff_exists.mp hsome.2
      · exact ⟨row, hrow⟩
    · rw [SqlitePersistence.getJob_persistRunState]
      split
      · rename_i heq
        exact (Option.map_eq_some_iff.mp heq).imp (fun _ h => h.1)
      · exact ⟨row, hrow⟩

theorem rowsKept_run {l : List (World × Action)} (h : ∀ x ∈ l, ∀ r, x.2 ≠ .expire r) :
    ∀ c, Core.RowsKept c (run coreStep c l) := by
  induction l with
  | nil => exact fun c => ⟨fun _ h => h, fun _ h => h⟩
  | cons x l ih =>
    intro c
    have hx := rowsKept_act c x (h x List.mem_cons_self)
    have hl := ih (fun y hy => h y (List.mem_cons_of_mem x hy)) (coreStep c x)
    exact ⟨fun k hk => hl.run k (hx.run k hk), fun k hk => hl.job k (hx.job k hk)⟩

/-! ## What is in the calls of a step -/

theorem not_expire_of_keeps (a : Action) (h : a.keeps = true) (r : RunId) : a ≠ .expire r := by
  rintro rfl
  cases h

/-- Only a tick expires runs. -/
theorem calls_of_notTick {d : Daemon} {w : World} {i : Input}
    (hi : d.alive = true → i ≠ .tick) : ∀ x ∈ (d.step (w, i)).calls, ∀ r, x.2 ≠ .expire r := by
  have hof : ∀ {d₀ d' : Daemon}, d₀.calls = [] → Did (fun a => ∀ r, a ≠ .expire r) w d₀ d' →
      ∀ x ∈ d'.calls, ∀ r, x.2 ≠ .expire r := by
    intro d₀ d' hcalls₀ ⟨l, hcalls, hl⟩ x hx
    rw [hcalls, hcalls₀, List.nil_append] at hx
    exact (hl x hx).2
  have hboot : ∀ d₀ : Daemon, d₀.calls = [] → ∀ x ∈ (d₀.boot w).calls, ∀ r, x.2 ≠ .expire r := by
    intro d₀ hcalls₀ x hx
    obtain ⟨l, hcalls, _, hl⟩ := boot_calls w d₀
    rw [hcalls, hcalls₀, List.nil_append] at hx
    rcases hl with ⟨rfl, _⟩ | rfl
    · cases hx
    · rw [List.mem_singleton.mp hx]
      nofun
  have hk : Skeleton w (Did (fun a => ∀ r, a ≠ .expire r) w) true true :=
    skeleton_did (fun a h => not_expire_of_keeps a (Action.keeps_of_isPlain h)) (fun _ => nofun) w
  generalize hd₀ : ({ d with sent := [], calls := [] } : Daemon) = d₀
  have hcalls₀ : d₀.calls = [] := by rw [← hd₀]
  cases hd : d.alive with
  | false =>
    rw [step_of_dead hd₀.symm hd]
    cases i with
    | start => exact hboot d₀ hcalls₀
    | _ =>
      intro x hx
      rw [hcalls₀] at hx
      cases hx
  | true =>
    rw [step_of_alive hd₀.symm hd]
    cases i with
    | update u => exact hof hcalls₀ (Untouched.did (untouched_agentUpdate w d₀ u))
    | command c => exact hof hcalls₀ (hk.handleCommand d₀ c)
    | event v =>
      cases hv : d₀.handle w (.event v) with
      | ok d' => exact hof hcalls₀ (hk.handleEvent d₀ v (Or.inl hv))
      | error d' =>
        show ∀ x ∈ d'.calls, _
        exact hof hcalls₀ (hk.handleEvent d₀ v (Or.inr hv))
    | tick => exact absurd rfl (hi hd)
    | shutdown =>
      obtain ⟨d', hd', heq⟩ := hk.shutdown d₀
      show ∀ x ∈ (d₀.shutdown w).calls, _
      rw [heq]
      exact hof hcalls₀ hd'
    | start => exact hboot d₀ hcalls₀

/-! ## A tick before its cleanup -/

/-- The file that the effect removes. -/
def Effect.removedFile : Effect → Option PathBuf
  | .removeFile path => some path
  | _ => none

/-- The files that were removed while the last input was handled. -/
def Daemon.removedFiles (d : Daemon) : List PathBuf := d.sent.filterMap Effect.removedFile

/-- Every run is as it was, or was there and has been written at the time of `w`. Artifacts are
the same, no file was removed, and there was no cleanup. -/
structure Upheld (w : World) (d d' : Daemon) : Prop where
  run : ∀ k, d'.engine.store.getRun k = d.engine.store.getRun k ∨
    ∃ run run', d.engine.store.getRun k = some run ∧ d'.engine.store.getRun k = some run' ∧
      run'.updatedAt = w.now
  artifact : ∀ id, d'.engine.store.getArtifact id = d.engine.store.getArtifact id
  removedFiles : d'.removedFiles = d.removedFiles
  lastCleanup : d'.lastCleanup = d.lastCleanup

/-- The actions that are taken before the cleanup. -/
def Action.upholds : Action → Bool
  | .call _ (.recordHeartbeat _) => true
  | a => a.deals

theorem artifacts_activate (w : World) (e : OrchestratorEngine) :
    (e.activateReadyChannels w).2.store.artifacts = e.store.artifacts := by
  have hchannels : ∀ (ids : List ChannelId) (acc : List ChannelId × RunStore),
      (ids.foldl activateChannel acc).2.artifacts = acc.2.artifacts := by
    intro ids
    induction ids with
    | nil => exact fun _ => rfl
    | cons id ids ih =>
      intro acc
      rw [List.foldl_cons, ih]
      unfold activateChannel
      split
      · rfl
      · split <;> rfl
  have hruns : ∀ (rs : List RunId) (acc : List ChannelId × RunStore),
      (rs.foldl (activateRunChannels w) acc).2.artifacts = acc.2.artifacts := by
    intro rs
    induction rs with
    | nil => exact fun _ => rfl
    | cons r rs ih =>
      intro acc
      rw [List.foldl_cons, ih]
      exact hchannels ..
  exact hruns (e.activeRunIds w) ([], e.store)

section
variable {w : World} {d d₁ d₂ d₃ : Daemon} {r : RunId} {α : Type}

theorem Untouched.upheld (h : Untouched d₁ d₂) (hf : d₂.removedFiles = d₁.removedFiles)
    (hc : d₂.lastCleanup = d₁.lastCleanup) : Upheld w d₁ d₂ := by
  refine ⟨fun k => Or.inl ?_, fun id => ?_, hf, hc⟩ <;> rw [h.engine]

theorem Upheld.refl (d : Daemon) : Upheld w d d := (Untouched.refl d).upheld rfl rfl

theorem Upheld.trans (h : Upheld w d₁ d₂) (h' : Upheld w d₂ d₃) : Upheld w d₁ d₃ := by
  refine ⟨fun k => ?_, fun id => (h'.artifact id).trans (h.artifact id),
    h'.removedFiles.trans h.removedFiles, h'.lastCleanup.trans h.lastCleanup⟩
  rcases h.run k with hsame | ⟨run, run', hk, hk', hnow⟩
  · rw [← hsame]
    exact h'.run k
  · rcases h'.run k with hsame' | ⟨_, run'', _, hk'', hnow'⟩
    · exact Or.inr ⟨run, run', hk, hsame'.trans hk', hnow⟩
    · exact Or.inr ⟨run, run'', hk, hk'', hnow'⟩

theorem upheld_foldl {f : Daemon → α → Daemon} (hf : ∀ d a, Upheld w d (f d a)) (l : List α) :
    ∀ d, Upheld w d (l.foldl f d) :=
  foldl_relates .refl .trans l (fun a _ d => hf d a)

theorem removedFiles_send (d : Daemon) {effect : Effect} (h : effect.removedFile = none) :
    (d.send effect).removedFiles = d.removedFiles := by
  have hsent : (d.send effect).sent = d.sent ++ [effect] := rfl
  unfold Daemon.removedFiles
  rw [hsent, List.filterMap_append, List.filterMap_cons_none h]
  exact List.append_nil _

theorem upheld_send (d : Daemon) {effect : Effect} (h : effect.removedFile = none) :
    Upheld w d (d.send effect) := (untouched_send d effect).upheld (removedFiles_send d h) rfl

theorem upheld_frame {a : Action} {e' : OrchestratorEngine} (he : (d.act w a).engine = e')
    (hf : Frame d.engine e') (ha : e'.store.artifacts = d.engine.store.artifacts) :
    Upheld w d (d.act w a) := by
  subst he
  exact ⟨fun k => Or.inl (hf.getRun k), fun id => getArtifact_of_artifacts ha id, rfl, rfl⟩

theorem upheld_markFailed (d : Daemon) (j : JobId) (err : String) :
    Upheld w d (d.act w (.call r (.markFailed j err))) := by
  refine ⟨fun k => ?_,
    fun id => getArtifact_of_artifacts (artifacts_markFailed w d.engine j err) id, rfl, rfl⟩
  show (d.engine.markFailed w j err).store.getRun k = _ ∨ _
  cases hact : d.engine.activeJobs.get j with
  | none => exact Or.inl (getRun_markFailed_of_notActive w d.engine j err hact k)
  | some r' =>
    cases checked_markFailed w d.engine j err hact with
    | unchanged hget => exact Or.inl (hget k)
    | finished _ _ st final _ _ hget =>
      by_cases hkr : k = r'
      · cases hrun : d.engine.store.getRun k with
        | none =>
          left
          rw [hget, if_pos hkr, ← hkr, hrun]
          rfl
        | some run =>
          refine Or.inr ⟨run,
            { run with status := st, updatedAt := w.now, finalArtifactIds := final }, rfl, ?_, rfl⟩
          show (d.engine.markFailed w j err).store.getRun k = _
          rw [hget, if_pos hkr, ← hkr, hrun]
          rfl
      · exact Or.inl ((hget k).trans (if_neg hkr))

theorem upheld_startNext (d : Daemon) : Upheld w d (d.act w (.call r .startNext)) := by
  have hengine : (d.act w (.call r .startNext)).engine = (d.engine.startNext w).2 := rfl
  rcases startNext_cases w d.engine with ⟨q, heq, _⟩ | ⟨job, q, _, _, _, heq⟩ <;>
    rw [heq] at hengine
  · refine ⟨fun k => Or.inl ?_, fun id => ?_, rfl, rfl⟩ <;> rw [hengine]
  · refine ⟨fun k => ?_, fun id => ?_, rfl, rfl⟩
    · rw [hengine, getRun_started]
      split
      · rename_i hkr
        rw [← hkr]
        cases hrun : d.engine.store.getRun k with
        | none => exact Or.inl rfl
        | some run =>
          rw [Option.map_some]
          unfold Run.start
          split
          · exact Or.inr ⟨run, _, rfl, rfl, rfl⟩
          · exact Or.inl rfl
      · exact Or.inl rfl
    · rw [hengine]
      rfl

theorem upheld_act (d : Daemon) {a : Action} (ha : a.upholds = true) :
    Upheld w d (d.act w a) := by
  cases a with
  | call r f =>
    cases f with
    | recordHeartbeat j =>
      refine upheld_frame rfl (frame_recordHeartbeat w d.engine j) ?_
      show (d.engine.recordHeartbeat w j).store.artifacts = _
      unfold recordHeartbeat
      split <;> rfl
    | markFailed j err => exact upheld_markFailed d j err
    | startNext => exact upheld_startNext d
    | activateReadyChannels =>
      exact upheld_frame rfl channelStep_activate.frame (artifacts_activate w d.engine)
    | handleChannelPeerFailure ch j =>
      exact upheld_frame rfl (channelStep_peerFailure ch j).frame (artifacts_peerFailure ch j)
    | _ => cases ha
  | persistRunState r => exact ⟨fun _ => Or.inl rfl, fun _ => rfl, rfl, rfl⟩
  | _ => cases ha

theorem manning_upheld : Manning (Upheld w) where
  refl := .refl
  trans := .trans
  send := fun d effect h => upheld_send d (by cases effect <;> first | rfl | cases h)
  manage := fun _ _ => Untouched.upheld ⟨rfl, rfl⟩ rfl rfl

/-- What is managed is neither here nor there. -/
theorem upheld_insertManaged (d : Daemon) (name : String) (agent : InternalAgent) :
    Upheld w d (d.insertManaged name agent) := Untouched.upheld ⟨rfl, rfl⟩ rfl rfl

theorem upheld_dropWorker (d : Daemon) (name : String) :
    Upheld w d ((d.stopWorker name).removeManaged name) := manning_upheld.dropWorker d name

theorem upheld_reloadConfig (d : Daemon) : Upheld w d (d.reloadConfig w) := by
  unfold reloadConfig
  split
  · exact .refl d
  · split
    · exact .refl d
    · rename_i config _ _
      have happly : Upheld w d (d.applyConfigChanges w config) := by
        rw [applyConfigChanges_eq]
        refine (upheld_foldl (fun d name => upheld_dropWorker d name) _ d).trans
          (upheld_foldl (fun d agent => ?_) _ _)
        unfold addManaged
        split
        · exact .refl d
        · exact (upheld_send d rfl).trans (upheld_insertManaged _ _ _)
      exact happly.trans (Untouched.upheld ⟨rfl, rfl⟩ rfl rfl)

theorem upheld_refreshHeartbeats (d : Daemon) : Upheld w d (d.refreshHeartbeats w) := by
  refine upheld_foldl (fun d jobId => ?_) _ d
  split
  · exact upheld_act d rfl
  · exact .refl d

theorem upheld_failChannel (jobId : JobId) (d : Daemon) (chId : ChannelId) :
    Upheld w d (failChannel w r jobId d chId) := by
  unfold failChannel
  dsimp only
  refine (upheld_act d (a := .call r (.handleChannelPeerFailure chId jobId)) rfl).trans ?_
  split
  · refine upheld_foldl (fun d k => ?_) _ _
    exact (upheld_dropWorker d (workerName k)).trans (upheld_act _ rfl)
  · refine upheld_foldl (fun d k => ?_) _ _
    unfold notifyPeer
    split
    · exact upheld_send d rfl
    · exact .refl d
  · exact .refl _

theorem upheld_finish (d : Daemon) : Upheld w d (finish w r d) := by
  have hscan : ∀ d, Upheld w d (activateChannels w r d) := by
    intro d
    refine (upheld_act d (a := .call r .activateReadyChannels) rfl).trans
      (upheld_foldl (fun d chId => ?_) _ _)
    unfold sendInitial
    split
    · exact .refl d
    · split
      · split
        · exact upheld_send d rfl
        · exact .refl d
      · exact .refl d
  exact (manning_upheld.spawnReady upheld_startNext _ d).trans ((hscan _).trans (upheld_act _ rfl))

theorem upheld_failStaleJob (d : Daemon) (jobId : JobId) :
    Upheld w d (failStaleJob w d jobId) :=
  (upheld_dropWorker d (workerName jobId)).trans
    ((upheld_foldl (upheld_failChannel jobId) _ _).trans
      ((upheld_act _ rfl).trans (upheld_finish _)))

/-- The daemon when the tick comes to the cleanup. -/
def Daemon.beforeCleanup (w : World) (d : Daemon) : Daemon := handleStaleJobs w (d.beforeStale w)

theorem upheld_beforeCleanup (d : Daemon) : Upheld w d.fresh (d.beforeCleanup w) :=
  (upheld_reloadConfig d.fresh).trans
    ((upheld_refreshHeartbeats _).trans (upheld_foldl upheld_failStaleJob _ _))

end

/-! ## The cleanup -/

/-- The run is over, and was last written more than the days ago. -/
def Run.Expired (w : World) (days : Nat) (run : Run) : Prop :=
  (run.status = .completed ∨ run.status = .failed ∨ run.status = .cancelled) ∧
    run.updatedAt + days * 86400000 < w.now

/-- Runs are not kept for ever, and the last cleanup is more than an hour ago. -/
def Daemon.CleanupDue (w : World) (days : Nat) (d : Daemon) : Prop :=
  0 < days ∧ 3600000 < w.instant - d.lastCleanup

section
variable {w : World} {d : Daemon} {r k : RunId}

theorem mem_expiredRuns : k ∈ d.expiredRuns w ↔ ∃ run, d.engine.store.getRun k = some run ∧
    run.Expired w d.currentConfig.daemon.runTtlDays := by
  have hover : ∀ run : Run, ((run.status == .completed || run.status == .failed ||
      run.status == .cancelled) && decide (run.updatedAt +
        d.currentConfig.daemon.runTtlDays * 86400000 < w.now)) = true ↔
      run.Expired w d.currentConfig.daemon.runTtlDays := by
    intro run
    simp [Run.Expired, or_assoc]
  unfold Daemon.expiredRuns
  rw [List.mem_map]
  refine ⟨?_, ?_⟩
  · rintro ⟨run, hmem, rfl⟩
    obtain ⟨hlist, hexp⟩ := List.mem_filter.mp hmem
    exact ⟨run, mem_listRuns.mp hlist, (hover run).mp hexp⟩
  · rintro ⟨run, hrun, hexp⟩
    have hid := RunStore.runId_of_getRun hrun
    exact ⟨run, List.mem_filter.mpr ⟨mem_listRuns.mpr (hid ▸ hrun), (hover run).mpr hexp⟩, hid⟩

/-- The files are those of the artifacts of the run. -/
theorem mem_removeRun_paths {s : RunStore} {path : PathBuf} : path ∈ (s.removeRun w r).1 ↔
    ∃ id a, s.getArtifact id = some a ∧ a.runId = r ∧ a.path = path := by
  have hlist : (s.removeRun w r).1 = ((s.artifacts.valuesIn (w.order .artifacts)).filter
      (fun a => a.runId == r)).map (·.path) := rfl
  rw [hlist, List.mem_map]
  refine ⟨?_, ?_⟩
  · rintro ⟨a, hmem, rfl⟩
    obtain ⟨hget, hr⟩ := List.mem_filter.mp hmem
    exact ⟨a.artifactId, a, Table.mem_valuesIn.mp hget, beq_iff_eq.mp hr, rfl⟩
  · rintro ⟨id, a, hget, hr, rfl⟩
    have hid : a.artifactId = id := s.artifacts.key_of_get hget
    refine ⟨a, List.mem_filter.mpr ⟨Table.mem_valuesIn.mpr ?_, beq_iff_eq.mpr hr⟩, rfl⟩
    rw [hid]
    exact hget

theorem removedFiles_foldl (paths : List PathBuf) : ∀ d : Daemon,
    (paths.foldl (fun d path => d.send (.removeFile path)) d).removedFiles =
      d.removedFiles ++ paths := by
  induction paths with
  | nil => exact fun d => (List.append_nil _).symm
  | cons path paths ih =>
    intro d
    have hsent : (d.send (.removeFile path)).removedFiles = d.removedFiles ++ [path] :=
      List.filterMap_append
    rw [List.foldl_cons, ih, hsent, List.append_assoc]
    rfl

/-- What is left of the runs in the list once they are removed. -/
structure Cleaned (rs : List RunId) (d d' : Daemon) : Prop where
  run : ∀ k, d'.engine.store.getRun k = if k ∈ rs then none else d.engine.store.getRun k
  artifact : ∀ id a, d'.engine.store.getArtifact id = some a ↔
    d.engine.store.getArtifact id = some a ∧ a.runId ∉ rs
  removedFiles : ∀ path, path ∈ d'.removedFiles ↔ path ∈ d.removedFiles ∨
    ∃ id a, d.engine.store.getArtifact id = some a ∧ a.runId ∈ rs ∧ a.path = path

theorem cleaned_expireRun (d : Daemon) (r : RunId) : Cleaned [r] d (d.expireRun w r) := by
  have hfiles := untouched_foldl (fun d path => untouched_send d (.removeFile path))
    (d.engine.store.removeRun w r).1 d
  have hengine : (d.expireRun w r).engine = d.engine.removeRun w r := by
    show ((d.engine.store.removeRun w r).1.foldl _ d).engine.removeRun w r = _
    rw [hfiles.engine]
  refine ⟨fun k => ?_, fun id a => ?_, fun path => ?_⟩
  · rw [hengine, getRun_expire]
    simp only [List.mem_singleton]
  · have hget : (d.engine.removeRun w r).store.getArtifact id =
        (d.engine.store.getArtifact id).filter (fun a => !(a.runId == r)) :=
      Table.get_removeAll_filter ..
    rw [hengine, hget, Option.filter_eq_some_iff, List.mem_singleton]
    simp
  · have hremoved : (d.expireRun w r).removedFiles =
        d.removedFiles ++ (d.engine.store.removeRun w r).1 := removedFiles_foldl ..
    rw [hremoved, List.mem_append, mem_removeRun_paths]
    simp only [List.mem_singleton]

theorem cleaned_foldl (rs : List RunId) : ∀ d : Daemon,
    Cleaned rs d (rs.foldl (expireRun w) d) := by
  induction rs with
  | nil => exact fun d => ⟨fun _ => by simp, fun _ _ => by simp, fun _ => by simp⟩
  | cons r rs ih =>
    intro d
    have hr := cleaned_expireRun (w := w) d r
    have hrs := ih (d.expireRun w r)
    refine ⟨fun k => ?_, fun id a => ?_, fun path => ?_⟩
    · rw [List.foldl_cons, hrs.run, hr.run]
      by_cases hk : k = r <;> by_cases hmem : k ∈ rs <;> simp [hk, hmem]
    · rw [List.foldl_cons, hrs.artifact, hr.artifact, List.mem_singleton, List.mem_cons, not_or,
        and_assoc]
    · rw [List.foldl_cons, hrs.removedFiles, hr.removedFiles, or_assoc]
      refine or_congr_right ⟨?_, ?_⟩
      · rintro (⟨id, a, hget, hmem, rfl⟩ | ⟨id, a, hget, hmem, rfl⟩)
        · exact ⟨id, a, hget, List.mem_cons.mpr (Or.inl (List.mem_singleton.mp hmem)), rfl⟩
        · exact ⟨id, a, ((hr.artifact id a).mp hget).1, List.mem_cons_of_mem r hmem, rfl⟩
      · rintro ⟨id, a, hget, hmem, rfl⟩
        by_cases hself : a.runId = r
        · exact Or.inl ⟨id, a, hget, List.mem_singleton.mpr hself, rfl⟩
        · refine Or.inr ⟨id, a, (hr.artifact id a).mpr ⟨hget, ?_⟩, ?_, rfl⟩
          · exact fun h => hself (List.mem_singleton.mp h)
          · exact (List.mem_cons.mp hmem).resolve_left hself

end

/-! ## A tick -/

/-- The days for which runs are kept, in the config that a tick puts in force. -/
def Daemon.keptDays (w : World) (d : Daemon) : Nat :=
  (d.reloadConfig w).currentConfig.daemon.runTtlDays

section
variable {w : World} {d : Daemon}

theorem beforeCleanup_days (d : Daemon) :
    (d.beforeCleanup w).currentConfig.daemon.runTtlDays = d.keptDays w := by
  have hk := (constituent_sameConfig w).skeleton
  have hsame : SameConfig (d.fresh.reloadConfig w) (d.beforeCleanup w) :=
    hk.trans (hk.refreshHeartbeats _) (hk.handleStaleJobs _)
  have hfresh : (d.fresh.reloadConfig w).currentConfig = (d.reloadConfig w).currentConfig := by
    unfold reloadConfig
    cases w.loadConfig with
    | none => rfl
    | some config =>
      have hhash : d.fresh.lastConfigHash = d.lastConfigHash := rfl
      dsimp only
      rw [hhash]
      split <;> rfl
  unfold Daemon.keptDays
  rw [hsame.currentConfig, hfresh]

theorem removedFiles_restartAgents (d : Daemon) :
    (d.restartAgents w).removedFiles = d.removedFiles := by
  have hfold : ∀ (names : List String) (d : Daemon),
      (names.foldl restartDue d).removedFiles = d.removedFiles := by
    intro names
    induction names with
    | nil => exact fun _ => rfl
    | cons name names ih =>
      intro d
      rw [List.foldl_cons, ih]
      unfold restartDue
      split
      · rfl
      · exact removedFiles_send (d.removeManaged name) rfl
  exact hfold _ d

/-- The runs that the cleanup of a tick removes. -/
def Daemon.dueRuns (w : World) (d : Daemon) : List RunId :=
  if 0 < d.keptDays w ∧ 3600000 < w.instant - d.lastCleanup then
    (d.beforeCleanup w).expiredRuns w
  else []

theorem mem_dueRuns {k : RunId} : k ∈ d.dueRuns w ↔ d.CleanupDue w (d.keptDays w) ∧
    ∃ run, (d.beforeCleanup w).engine.store.getRun k = some run ∧
      run.Expired w (d.keptDays w) := by
  unfold Daemon.dueRuns
  split
  · rename_i hdue
    rw [mem_expiredRuns, beforeCleanup_days]
    exact (and_iff_right hdue).symm
  · rename_i hnot
    exact ⟨fun h => (by cases h), fun h => absurd h.1 hnot⟩

/-- What is left after a tick of what there was before its cleanup. -/
theorem cleaned_tick (halive : d.alive = true) :
    Cleaned (d.dueRuns w) (d.beforeCleanup w) (d.step (w, .tick)) := by
  have htick : d.step (w, .tick) = restartAgents w (cleanup w (d.beforeCleanup w)) :=
    step_of_alive rfl halive w .tick
  have hclock : (d.beforeCleanup w).lastCleanup = d.lastCleanup :=
    (upheld_beforeCleanup (w := w) d).lastCleanup
  have hcleaned : Cleaned (d.dueRuns w) (d.beforeCleanup w) (cleanup w (d.beforeCleanup w)) := by
    unfold cleanup Daemon.dueRuns
    rw [beforeCleanup_days, hclock]
    split
    · obtain ⟨hrun, hartifact, hfiles⟩ := cleaned_foldl (w := w)
        ((d.beforeCleanup w).expiredRuns w) { d.beforeCleanup w with lastCleanup := w.instant }
      exact ⟨hrun, hartifact, hfiles⟩
    · exact ⟨fun _ => by simp, fun _ _ => by simp, fun _ => by simp⟩
  obtain ⟨hrun, hartifact, hfiles⟩ := hcleaned
  have hengine := (untouched_restartAgents w (cleanup w (d.beforeCleanup w))).engine
  rw [htick]
  refine ⟨fun k => ?_, fun id a => ?_, fun path => ?_⟩
  · rw [hengine]
    exact hrun k
  · rw [hengine]
    exact hartifact id a
  · rw [removedFiles_restartAgents]
    exact hfiles path

end

/-- A run that is no longer there after the step. -/
def Daemon.Loses (d d' : Daemon) (k : RunId) : Prop :=
  (∃ run, d.engine.store.getRun k = some run) ∧ d'.engine.store.getRun k = none

/-- Of the runs there are before a tick, those are lost that have expired when a cleanup is
due; of those there are after it none has. The files of their artifacts are removed, and no
other. -/
structure Daemon.CleansUp (w : World) (d d' : Daemon) : Prop where
  lost : ∀ k run, d.engine.store.getRun k = some run → d.Loses d' k →
    d.CleanupDue w (d.keptDays w) ∧ run.Expired w (d.keptDays w)
  kept : d.CleanupDue w (d.keptDays w) → ∀ k run, d'.engine.store.getRun k = some run →
    ¬ run.Expired w (d.keptDays w)
  files : ∀ path, path ∈ d'.removedFiles ↔
    ∃ id a, d.engine.store.getArtifact id = some a ∧ d.Loses d' a.runId ∧ a.path = path

theorem cleansUp_tick {w : World} {d : Daemon} (halive : d.alive = true) :
    d.CleansUp w (d.step (w, .tick)) := by
  have hbefore := upheld_beforeCleanup (w := w) d
  have hafter := cleaned_tick (w := w) halive
  -- what has expired before the cleanup was not written in the tick
  have hexpired : ∀ k ∈ d.dueRuns w, ∃ run, d.engine.store.getRun k = some run ∧
      run.Expired w (d.keptDays w) := by
    intro k hk
    obtain ⟨_, run, hrun, hexp⟩ := mem_dueRuns.mp hk
    rcases hbefore.run k with hsame | ⟨_, run', _, hrun', hnow⟩
    · exact ⟨run, hsame.symm.trans hrun, hexp⟩
    · cases hrun.symm.trans hrun'
      have hlate := hexp.2
      rw [hnow] at hlate
      exact absurd hlate (Nat.not_lt.mpr (Nat.le_add_right _ _))
  have hlost : ∀ k, d.Loses (d.step (w, .tick)) k ↔ k ∈ d.dueRuns w := by
    intro k
    refine ⟨?_, ?_⟩
    · rintro ⟨⟨run, hrun⟩, hgone⟩
      by_contra hmem
      rw [hafter.run, if_neg hmem] at hgone
      rcases hbefore.run k with hsame | ⟨_, run', _, hrun', _⟩
      · have hnone : d.engine.store.getRun k = none := hsame.symm.trans hgone
        cases hrun.symm.trans hnone
      · cases hrun'.symm.trans hgone
    · intro hmem
      obtain ⟨run, hrun, _⟩ := hexpired k hmem
      exact ⟨⟨run, hrun⟩, by rw [hafter.run, if_pos hmem]⟩
  refine ⟨?_, ?_, ?_⟩
  · intro k run hrun hloses
    have hmem := (hlost k).mp hloses
    obtain ⟨run', hrun', hexp⟩ := hexpired k hmem
    cases hrun.symm.trans hrun'
    exact ⟨(mem_dueRuns.mp hmem).1, hexp⟩
  · intro hdue k run hrun hexp
    rw [hafter.run] at hrun
    split at hrun
    · cases hrun
    · rename_i hmem
      exact hmem (mem_dueRuns.mpr ⟨hdue, run, hrun, hexp⟩)
  · intro path
    have hnone : (d.beforeCleanup w).removedFiles = [] := hbefore.removedFiles
    rw [hafter.removedFiles, hnone]
    refine ⟨?_, ?_⟩
    · rintro (hnil | ⟨id, a, hget, hmem, hpath⟩)
      · cases hnil
      · exact ⟨id, a, (hbefore.artifact id).symm.trans hget, (hlost _).mpr hmem, hpath⟩
    · rintro ⟨id, a, hget, hloses, hpath⟩
      exact Or.inr ⟨id, a, (hbefore.artifact id).trans hget, (hlost _).mp hloses, hpath⟩

/-! ## The run of a job -/

/-- The job is there, or its run is gone for good. -/
def Core.Housed (k : JobId) (r : RunId) (c : Core) : Prop :=
  (∃ job, c.engine.store.getJob k = some job ∧ job.runId = r) ∨
    c.engine.store.getRun r = none ∧ Issued c.engine.ids r

theorem housed_act {k : JobId} {r : RunId} {c : Core} {x : World × Action} (hs : Sound c)
    (hl : Legal c x) (hx : x.2 ≠ .hydrate) (h : c.Housed k r) : (coreStep c x).Housed k r := by
  obtain ⟨e, db⟩ := c
  obtain ⟨w, a⟩ := x
  rcases h with ⟨job, hjob, hr⟩ | ⟨hnone, hissued⟩
  · cases a with
    | call r' f =>
      obtain ⟨job', hjob', hid⟩ := job_after hs.grounded hl hjob
      exact Or.inl ⟨job', hjob', (Job.runId_of_identity hid).trans hr⟩
    | expire r' =>
      by_cases heq : r = r'
      · obtain ⟨run, hrun⟩ := hs.grounded.runOf k job hjob
        refine Or.inr ⟨?_, hr ▸ hs.grounded.runIssued job.runId run hrun⟩
        show (e.removeRun w r').store.getRun r = none
        rw [getRun_expire, if_pos heq]
      · exact Or.inl ⟨job, getJob_expire.mpr ⟨hjob, hr ▸ heq⟩, hr⟩
    | hydrate => exact absurd rfl hx
    | _ => exact Or.inl ⟨job, hjob, hr⟩
  · have hlater := issued_act hs hissued (w, a)
    cases a with
    | call r' f =>
      refine Or.inr ⟨?_, hlater⟩
      by_contra hsome
      obtain ⟨run', hrun'⟩ := Option.ne_none_iff_exists'.mp hsome
      rcases run_before hs.grounded hl hrun' with ⟨run, hrun, _⟩ | ⟨hnew, _⟩
      · cases hrun.symm.trans hnone
      · exact hnew hissued
    | expire r' =>
      refine Or.inr ⟨?_, hlater⟩
      show (e.removeRun w r').store.getRun r = none
      rw [getRun_expire]
      split
      · rfl
      · exact hnone
    | hydrate => exact absurd rfl hx
    | _ => exact Or.inr ⟨hnone, hlater⟩

/-- No tick hydrates. -/
theorem calls_of_tick {w : World} {d : Daemon} (halive : d.alive = true) :
    ∀ x ∈ (d.step (w, .tick)).calls, x.2 ≠ .hydrate := by
  have hk : Skeleton w (Did (· ≠ .hydrate) w) true true :=
    skeleton_did (fun a ha heq => by rw [heq] at ha; cases ha) (fun _ => nofun) w
  have htick : d.step (w, .tick) = tick w d.fresh := step_of_alive rfl halive w .tick
  have hdid := (Untouched.did (untouched_reloadConfig w d.fresh)).trans
    (hk.tick (fun d r => .act d (by nofun)) d.fresh)
  obtain ⟨l, hcalls, hl⟩ := hdid
  rw [htick, hcalls]
  exact fun x hx => (hl x hx).2

/-! ## Every step -/

/-- What is left of the records of the daemon when it has handled the input. -/
structure Daemon.Outlasts (d : Daemon) (x : World × Input) : Prop where
  agrees : (d.step x).alive = true → ∀ db, (d.step x).core.db = some db →
    (d.step x).core.Agrees db
  rows : (d.alive = true → x.2 ≠ .tick) → d.core.RowsKept (d.step x).core
  jobs : d.alive = true → x.2 = .tick → ∀ k job, d.engine.store.getJob k = some job →
    (d.step x).engine.store.getJob k = none → d.Loses (d.step x) job.runId

theorem outlasts_of_agrees {d : Daemon} {x : World × Input} (hs : Sound d.core) (hx : Clocked d x)
    (hagrees : (d.step x).alive = true → ∀ db, (d.step x).core.db = some db →
      (d.step x).core.Agrees db) : d.Outlasts x := by
  obtain ⟨w, i⟩ := x
  obtain ⟨hcore, hlegal, _, _⟩ := step_takes i ⟨hs, hx⟩
  refine ⟨hagrees, ?_, ?_⟩
  · intro hi
    rw [hcore]
    exact rowsKept_run (calls_of_notTick hi) d.core
  · intro halive hi k job hjob hnone
    cases hi
    have hhoused : (d.step (w, .tick)).core.Housed k job.runId := by
      have hcalls : Meets coreStep (fun _ x => x.2 ≠ .hydrate) d.core (d.step (w, .tick)).calls :=
        Meets.of_forall (fun x hx _ => calls_of_tick halive x hx) d.core
      have hkeep : ∀ c x, Sound c ∧ c.Housed k job.runId → Legal c x ∧ x.2 ≠ .hydrate →
          Sound (coreStep c x) ∧ (coreStep c x).Housed k job.runId :=
        fun c x hc hg => ⟨sound_act hc.1 hg.1, housed_act hc.1 hg.1 hg.2 hc.2⟩
      rw [hcore]
      exact (run_invariant hkeep ⟨hs, Or.inl ⟨job, hjob, rfl⟩⟩
        (Meets.and.mpr ⟨hlegal, hcalls⟩)).2
    refine ⟨hs.grounded.runOf k job hjob, ?_⟩
    rcases hhoused with ⟨job', hjob', _⟩ | ⟨hgone, _⟩
    · cases hjob'.symm.trans hnone
    · exact hgone

/-- After every step that the process survives, engine and database hold the same runs and
jobs. No step but a tick takes a row away, crashes and panics included, and a tick takes a job
away only with its run. -/
theorem records_last (persistent : Bool) (sandboxOverride : Option Bool) (capsule : Bool)
    (is : List (World × Input)) (x : World × Input)
    (h : Meets Daemon.step Clocked (Daemon.off persistent sandboxOverride capsule) (is ++ [x])) :
    (run Daemon.step (Daemon.off persistent sandboxOverride capsule) is).Outlasts x := by
  obtain ⟨his, hx⟩ := Meets.append.mp h
  have hs := sound_run (sound_off persistent sandboxOverride capsule) his
  have hagrees := agrees_run persistent sandboxOverride capsule h
  rw [run_append] at hagrees
  exact outlasts_of_agrees hs hx.1 hagrees

/-- A run is submitted, and the process crashes and starts again. -/
theorem records_last_restarted :
    (run Daemon.step (Daemon.off true none false) [(plannerWorld soloPlan, .start),
      (plannerWorld soloPlan, .command (.submitRun "task"))]).Outlasts
        ({ plannerWorld soloPlan with now := 5 }, .start) :=
  records_last true none false _ _ (by decide +kernel)

theorem alive_tick {d : Daemon} (halive : d.alive = true) (w : World) :
    (d.step (w, .tick)).alive = true := by
  have hstep : d.step (w, .tick) = tick w d.fresh := step_of_alive rfl halive w .tick
  rw [hstep, (sameConfig_tick w d.fresh).alive, reloadConfig_alive]
  exact halive

/-- A tick takes exactly the runs that have expired, from the engine and from the database. -/
theorem cleanup_exact (persistent : Bool) (sandboxOverride : Option Bool) (capsule : Bool)
    (is : List (World × Input)) (w : World)
    (h : Meets Daemon.step Clocked (Daemon.off persistent sandboxOverride capsule)
      (is ++ [(w, .tick)])) :
    let d := run Daemon.step (Daemon.off persistent sandboxOverride capsule) is
    d.alive = true → d.CleansUp w (d.step (w, .tick)) ∧
      ∀ db, (d.step (w, .tick)).core.db = some db → (d.step (w, .tick)).core.Agrees db := by
  intro d halive
  refine ⟨cleansUp_tick halive, ?_⟩
  have hagrees := agrees_run persistent sandboxOverride capsule h
  rw [run_append] at hagrees
  exact hagrees (alive_tick halive w)

/-- A cancelled run, a day later. -/
theorem cleanup_exact_expired :
    (run Daemon.step (Daemon.off true none false) cancelledInputs).CleansUp
      (dailyWorld 100000000 100000000)
      ((run Daemon.step (Daemon.off true none false) cancelledInputs).step
        (dailyWorld 100000000 100000000, .tick)) :=
  (cleanup_exact true none false cancelledInputs _ (by decide +kernel) (by decide +kernel)).1

end ZeptoPM
