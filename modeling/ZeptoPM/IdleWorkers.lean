import ZeptoPM.Course
import ZeptoPM.Crew
import ZeptoPM.Timeouts
import ZeptoPM.TurnHeld

/- Participants of a channel that wait for their turn. Before a tick looks for stale jobs it
   refreshes the heartbeats of those whose entry shows an idle worker (`refreshes_iff`).
   `idleParticipants_refreshed_iff` says in which runs of the daemon with the workers of its
   jobs that reaches every idle participant of an open channel: with plain names in those
   alone that have no idle participant at any tick, for what a worker reports never
   arrives at the entry of its job. -/
namespace ZeptoPM
open OrchestratorEngine Daemon

/-! ## Idle participants -/

namespace Daemon

/-- The tick refreshes the heartbeat of the job before it looks for stale jobs, and does not
fail the job for want of one. -/
structure Refreshes (w : World) (d : Daemon) (j : JobId) : Prop where
  refreshed : (w, Action.call "" (.recordHeartbeat j)) ∈ (d.beforeStale w).calls
  spared : ∀ x ∈ (d.step (w, .tick)).calls, timedOutBy x ≠ some j

/-- The config that the tick loads leaves the entry of the job in its place. -/
def Retains (w : World) (d : Daemon) (j : JobId) : Prop :=
  ∀ config ∈ w.loadConfig,
    w.configHash config.hashed = d.lastConfigHash ∨ workerName j ∈ config.autoStarted

/-- The entry of the job is one for direct chat and shows an idle worker, and the tick does
not lose it when it reloads the config. -/
def ShowsIdle (w : World) (d : Daemon) (j : JobId) : Prop :=
  (∃ a, d.managed.get (workerName j) = some a ∧ a.supportsDirectChat = true ∧ a.status = .idle) ∧
    d.Retains w j

end Daemon

namespace Crew

/-- The worker of the job is a plain process, and the last status it has reported is idle. -/
def SaysIdle (c : Crew) (j : JobId) : Prop :=
  ∃ n profile, c.worker j = some n ∧ c.launched[n]? = some (.job profile j) ∧
    c.said.get n = some .idle

/-- A running job with an idle worker that takes part in a channel that is not closed. -/
structure IdleParticipant (c : Crew) (j : JobId) : Prop where
  running : c.daemon.engine.statusOf j = some .running
  channel : ∃ id, c.daemon.engine.Standing j id false
  idle : c.SaysIdle j

/-- If the input is a poll tick of a process that is running, `P` holds of it. -/
def AtTick (P : World → Crew → Prop) (c : Crew) : CrewInput → Prop
  | .daemon w .tick => c.daemon.alive = true → P w c
  | _ => True

/-- Every idle participant is refreshed by the tick. -/
def Spared (w : World) (c : Crew) : Prop := ∀ j, c.IdleParticipant j → c.daemon.Refreshes w j

/-- Every idle participant is shown as such by its entry. -/
def Shown (w : World) (c : Crew) : Prop := ∀ j, c.IdleParticipant j → c.daemon.ShowsIdle w j

/-- There are no idle participants. -/
def Busy (_ : World) (c : Crew) : Prop := ∀ j, ¬ c.IdleParticipant j

end Crew

/-! ## The refresh -/

section
variable {w : World} {d : Daemon} {j : JobId}

/-- A heartbeat changes nothing that the refresh looks at. -/
theorem shouldRefresh_recordHeartbeat (w : World) (d : Daemon) (k j : JobId) :
    (d.act w (.call "" (.recordHeartbeat k))).shouldRefresh w j = d.shouldRefresh w j := by
  have hstore : (d.act w (.call "" (.recordHeartbeat k))).engine.store = d.engine.store := by
    show (d.engine.recordHeartbeat w k).store = _
    unfold recordHeartbeat
    split <;> rfl
  unfold shouldRefresh
  rw [hstore, act_managed]

/-- The daemon after the heartbeats of the jobs. -/
def Daemon.heartbeats (w : World) (js : List JobId) (d : Daemon) : Daemon :=
  js.foldl (fun d j => d.act w (.call "" (.recordHeartbeat j))) d

/-- Which heartbeats are refreshed is settled before the first of them is. -/
theorem refreshHeartbeats_eq (w : World) (d : Daemon) : refreshHeartbeats w d =
    d.heartbeats w ((d.engine.activeJobs.keysIn (w.order .activeJobs)).filter
      (d.shouldRefresh w)) := by
  have hfold : ∀ (js : List JobId) (d₁ : Daemon),
      (∀ j, d₁.shouldRefresh w j = d.shouldRefresh w j) →
      js.foldl (fun d j => if d.shouldRefresh w j then d.act w (.call "" (.recordHeartbeat j))
        else d) d₁ = d₁.heartbeats w (js.filter (d.shouldRefresh w)) := by
    intro js
    induction js with
    | nil => exact fun _ _ => rfl
    | cons j js ih =>
      intro d₁ hd₁
      rw [List.foldl_cons, hd₁ j]
      cases hj : d.shouldRefresh w j with
      | true =>
        rw [List.filter_cons_of_pos hj, if_pos rfl]
        exact ih _ fun k => (shouldRefresh_recordHeartbeat w d₁ j k).trans (hd₁ k)
      | false =>
        rw [List.filter_cons_of_neg (by rw [hj]; exact Bool.false_ne_true),
          if_neg Bool.false_ne_true]
        exact ih _ hd₁
  exact hfold _ d fun _ => rfl

theorem heartbeats_calls (js : List JobId) : ∀ d : Daemon, (d.heartbeats w js).calls =
    d.calls ++ js.map (fun j => (w, .call "" (.recordHeartbeat j))) := by
  induction js with
  | nil => exact fun d => (List.append_nil d.calls).symm
  | cons j js ih =>
    intro d
    show (heartbeats w js (d.act w (.call "" (.recordHeartbeat j)))).calls = _
    rw [ih, List.map_cons, List.append_cons]
    rfl

theorem lastHeartbeat_recordHeartbeat (w : World) (e : OrchestratorEngine) (k j : JobId) :
    (e.recordHeartbeat w k).lastHeartbeat.get j =
      if j = k ∧ e.activeJobs.contains k = true then some w.instant else e.lastHeartbeat.get j := by
  unfold recordHeartbeat
  cases hk : e.activeJobs.contains k with
  | false => rw [if_neg Bool.false_ne_true, if_neg fun h => Bool.false_ne_true h.2]
  | true =>
    rw [if_pos rfl, HashMap.get_insert]
    simp only [and_true]

theorem activeJobs_recordHeartbeat (w : World) (e : OrchestratorEngine) (k : JobId) :
    (e.recordHeartbeat w k).activeJobs = e.activeJobs := by
  unfold recordHeartbeat
  split <;> rfl

/-- An active job that is among those refreshed has its heartbeat from now. -/
theorem heartbeats_last (js : List JobId) : ∀ d : Daemon, d.engine.activeJobs.contains j = true →
    j ∈ js ∨ d.engine.lastHeartbeat.get j = some w.instant →
    (d.heartbeats w js).engine.lastHeartbeat.get j = some w.instant := by
  induction js with
  | nil => exact fun d _ h => h.resolve_left List.not_mem_nil
  | cons k js ih =>
    intro d hj hor
    have hactive : (d.act w (.call "" (.recordHeartbeat k))).engine.activeJobs =
        d.engine.activeJobs := activeJobs_recordHeartbeat w d.engine k
    refine ih _ (hactive ▸ hj) ?_
    have hlast : (d.act w (.call "" (.recordHeartbeat k))).engine.lastHeartbeat.get j = _ :=
      lastHeartbeat_recordHeartbeat w d.engine k j
    rw [hlast]
    rcases hor with hmem | hnow
    · rcases List.mem_cons.mp hmem with rfl | hmem
      · exact Or.inr (if_pos ⟨rfl, hj⟩)
      · exact Or.inl hmem
    · refine Or.inr ?_
      rw [hnow]
      exact ite_self _

/-- For a running job in an open channel the refresh looks at its entry. -/
theorem shouldRefresh_iff (hrun : d.engine.statusOf j = some .running)
    (hopen : ∃ id, d.engine.Standing j id false) : d.shouldRefresh w j = true ↔
      ∃ a, d.managed.get (workerName j) = some a ∧ a.supportsDirectChat = true ∧
        a.status = .idle := by
  obtain ⟨job, hjob, hstatus⟩ := statusOf_eq_some.mp hrun
  obtain ⟨id, ch, hch, hj, hclosed⟩ := hopen
  have hany : (d.engine.store.allChannelsForJob w j).any (fun ch => !ch.closed) = true := by
    refine List.any_eq_true.mpr ⟨ch, RunStore.mem_allChannelsForJob.mpr ⟨?_, hj⟩, by simp [hclosed]⟩
    rw [Table.key_of_get hch]
    exact hch
  unfold shouldRefresh
  rw [hany, hjob, Option.map_some, Option.getD_some, hstatus]
  cases d.managed.get (workerName j) with
  | none => simp
  | some a => simp

/-- What the reload leaves of the entry of a job. -/
theorem reloadConfig_showsIdle : d.ShowsIdle w j ↔
    ∃ a, (d.reloadConfig w).managed.get (workerName j) = some a ∧ a.supportsDirectChat = true ∧
      a.status = .idle := by
  unfold ShowsIdle Retains reloadConfig
  cases w.loadConfig with
  | none => exact and_iff_left nofun
  | some config =>
    dsimp only
    split
    · rename_i hsame
      refine and_iff_left fun c hc => ?_
      cases hc
      exact Or.inl hsame
    · rename_i hnew
      show _ ↔ ∃ a, (d.applyConfigChanges w config).managed.get (workerName j) = some a ∧ _
      rw [applyConfigChanges_get]
      refine ⟨?_, ?_⟩
      · rintro ⟨⟨a, hget, ha⟩, hretains⟩
        have hmem := (hretains config rfl).resolve_left hnew
        exact ⟨a, by rw [if_pos hmem, hget]; rfl, ha⟩
      · rintro ⟨a, hget, hchat, hidle⟩
        rcases Option.or_eq_some_iff.mp hget with hkept | ⟨_, hspawned⟩
        · split at hkept
          · rename_i hmem
            refine ⟨⟨a, hkept, hchat, hidle⟩, fun c hc => ?_⟩
            cases hc
            exact Or.inr hmem
          · cases hkept
        · -- an agent that has just been spawned is not idle
          obtain ⟨agent, _, rfl⟩ := Option.map_eq_some_iff.mp hspawned
          cases hidle

/-! ## The tick -/

/-- At a tick, a running job in an open channel is refreshed exactly if its entry shows an
idle worker. -/
theorem refreshes_iff (hs : Sound d.core) (halive : d.alive = true)
    (hrun : d.engine.statusOf j = some .running) (hopen : ∃ id, d.engine.Standing j id false) :
    d.Refreshes w j ↔ d.ShowsIdle w j := by
  have hu : Untouched d.fresh (reloadConfig w d.fresh) := untouched_reloadConfig w d.fresh
  have hengine : (reloadConfig w d.fresh).engine = d.engine := hu.engine
  have hshould := shouldRefresh_iff (w := w) (d := reloadConfig w d.fresh) (j := j)
    (hengine ▸ hrun) (hengine ▸ hopen)
  have hshows : d.ShowsIdle w j ↔ (reloadConfig w d.fresh).shouldRefresh w j = true :=
    (reloadConfig_showsIdle (d := d.fresh)).trans hshould.symm
  obtain ⟨job, hjob, hstatus⟩ := statusOf_eq_some.mp hrun
  obtain ⟨r, hactive⟩ := hs.grounded.supervised.running j job hjob hstatus
  have hbefore : d.beforeStale w = (reloadConfig w d.fresh).heartbeats w
      ((d.engine.activeJobs.keysIn (w.order .activeJobs)).filter
        ((reloadConfig w d.fresh).shouldRefresh w)) := by
    unfold beforeStale
    rw [refreshHeartbeats_eq, hengine]
  rw [hshows]
  refine ⟨fun h => ?_, fun h => ?_⟩
  · have hmem := h.refreshed
    rw [hbefore, heartbeats_calls, hu.2] at hmem
    obtain ⟨k, hk, heq⟩ := List.mem_map.mp hmem
    cases heq
    exact (List.mem_filter.mp hk).2
  · have hmem : j ∈ (d.engine.activeJobs.keysIn (w.order .activeJobs)).filter
        ((reloadConfig w d.fresh).shouldRefresh w) :=
      List.mem_filter.mpr ⟨HashMap.mem_keysIn.mpr ⟨r, hactive⟩, h⟩
    have hlast : (d.beforeStale w).engine.lastHeartbeat.get j = some w.instant := by
      rw [hbefore]
      refine heartbeats_last _ _ ?_ (Or.inl hmem)
      rw [hengine]
      exact HashMap.contains_iff.mpr ⟨r, hactive⟩
    refine ⟨?_, fun x hx hk => ?_⟩
    · rw [hbefore, heartbeats_calls]
      exact List.mem_append_right _ (List.mem_map.mpr ⟨j, hmem, rfl⟩)
    · -- it is not among the stale jobs, and no other job is timed out
      have hstale := (List.mem_filter.mp (tick_timedOut halive hx hk)).2
      rw [hlast] at hstale
      simp at hstale

end

namespace Crew

section
variable {c : Crew} {w : World}

theorem spared_iff (hs : Sound c.daemon.core) (halive : c.daemon.alive = true) :
    c.Spared w ↔ c.Shown w :=
  forall_congr' fun _ => forall_congr' fun h => refreshes_iff hs halive h.running h.channel

theorem shown_iff_busy (h : c.daemon.NoneIdle) : c.Shown w ↔ c.Busy w := by
  refine ⟨fun hshown j hj => ?_, fun hbusy j hj => absurd hj (hbusy j)⟩
  obtain ⟨⟨a, hget, _, hidle⟩, _⟩ := hshown j hj
  exact h j a hget hidle

theorem atTick_congr {P Q : World → Crew → Prop} (h : c.daemon.alive = true → ∀ w, P w c ↔ Q w c)
    (i : CrewInput) : AtTick P c i ↔ AtTick Q c i := by
  cases i with
  | daemon w i =>
    cases i with
    | tick => exact forall_congr' fun halive => h halive w
    | _ => exact Iff.rfl
  | _ => exact Iff.rfl

theorem misnamed_off (persistent : Bool) (sandboxOverride : Option Bool) (capsule : Bool) :
    (alone (Daemon.off persistent sandboxOverride capsule)).Misnamed :=
  misnamed_alone (fun _ ha => absurd ha List.not_mem_nil) (fun _ _ hget => by cases hget)

end

/-- At every tick of a run each idle participant is refreshed and spared exactly if, at every
tick, the entry of each idle participant shows an idle worker. Unless agents are named like
the entries of jobs, these are the runs in which no tick finds an idle participant. -/
theorem idleParticipants_refreshed_iff (persistent : Bool) (sandboxOverride : Option Bool)
    (capsule : Bool) (is : List CrewInput)
    (h : Meets step Clocked (alone (Daemon.off persistent sandboxOverride capsule)) is) :
    (Meets step (AtTick Spared) (alone (Daemon.off persistent sandboxOverride capsule)) is ↔
      Meets step (AtTick Shown) (alone (Daemon.off persistent sandboxOverride capsule)) is) ∧
    ((∀ i ∈ is, i.PlainlyNamed) →
      (Meets step (AtTick Spared) (alone (Daemon.off persistent sandboxOverride capsule)) is ↔
        Meets step (AtTick Busy) (alone (Daemon.off persistent sandboxOverride capsule)) is)) := by
  have hsound := sound_off persistent sandboxOverride capsule
  have hiff := Meets.congr (AtTick Spared) (AtTick Shown)
    (P := fun c : Crew => Sound c.daemon.core) (fun _ _ hs hi => sound_step hs hi)
    (fun c i hs _ => atTick_congr (fun halive _ => spared_iff hs halive) i) hsound h
  refine ⟨hiff, fun hplain => hiff.trans ?_⟩
  have hnames : Meets step (fun _ => CrewInput.PlainlyNamed)
      (alone (Daemon.off persistent sandboxOverride capsule)) is :=
    Meets.of_forall (fun i hi _ => hplain i hi) _
  exact Meets.congr (AtTick Shown) (AtTick Busy) (P := Misnamed)
    (fun _ _ hm hi => misnamed_step hm hi)
    (fun c i hm _ => atTick_congr (fun _ _ => shown_iff_busy hm.entries) i)
    (misnamed_off persistent sandboxOverride capsule) hnames

/-- A status line of a worker that waits for its next message. -/
def idleLine : Json := .obj [("type", .str "status"), ("status", .str "idle")]

/-- Two agents are started for a dialog, and the second one says that it is idle. -/
def dialogBegun : List CrewInput :=
  [.daemon (staffedWorld dialogPlan) .start,
    .daemon (staffedWorld dialogPlan) (.command (.submitRun "task")),
    .daemon (staffedWorld dialogPlan) (artifactEvent "job_1_1" "plan"),
    .daemon (staffedWorld dialogPlan) (completedEvent "job_1_1" ["plan"]),
    .begins 2 (.spawned (some 3)), .bridge 2 (.output idleLine)]

/-- The tick comes before the daemon has heard of it. -/
theorem idleParticipants_refreshed_iff_dialogBegun :
    Meets step (AtTick Spared) (alone (Daemon.off true none false))
        (dialogBegun ++ [.daemon (staffedWorld dialogPlan) .tick]) ∧
      Meets step (AtTick Shown) (alone (Daemon.off true none false))
        (dialogBegun ++ [.daemon (staffedWorld dialogPlan) .tick]) := by
  have h := idleParticipants_refreshed_iff true none false
    (dialogBegun ++ [.daemon (staffedWorld dialogPlan) .tick]) (by decide)
  have hbusy : Meets step (AtTick Busy) (alone (Daemon.off true none false))
      (dialogBegun ++ [.daemon (staffedWorld dialogPlan) .tick]) := by
    refine Meets.append.mpr ⟨?_, fun _ j hj => ?_, True.intro⟩
    · exact And.intro True.intro (And.intro True.intro (And.intro True.intro
        (And.intro True.intro (And.intro True.intro (And.intro True.intro True.intro)))))
    · obtain ⟨n, _, _, _, hidle⟩ := hj.idle
      have hnone : (run step (alone (Daemon.off true none false)) dialogBegun).said = .empty := by
        rfl
      rw [hnone] at hidle
      cases hidle
  have hspared := (h.2 (by decide)).mpr hbusy
  exact ⟨hspared, h.1.mp hspared⟩

/-- The daemon takes the report, and the first agent is still writing two minutes later. -/
def dialogWaiting : List CrewInput :=
  dialogBegun ++ [.deliver (staffedWorld dialogPlan), .deliver (staffedWorld dialogPlan),
    .daemon { staffedWorld dialogPlan with instant := 120000 } (.event (heartbeat "job_1_2"))]

/-- The report has gone to an entry named "critic", which there is not. The entry of the
second agent shows what it was spawned with, and the tick fails its job. -/
theorem not_refreshed_dialogWaiting :
    let c := run step (alone (Daemon.off true none false)) dialogWaiting
    let w := { staffedWorld dialogPlan with instant := 120001 }
    Meets step Clocked (alone (Daemon.off true none false)) (dialogWaiting ++ [.daemon w .tick]) ∧
      c.daemon.alive = true ∧ c.IdleParticipant "job_1_3" ∧
      (∃ x ∈ (c.daemon.step (w, .tick)).calls, timedOutBy x = some "job_1_3") ∧
      ¬ c.daemon.Refreshes w "job_1_3" ∧
      ¬ Meets step (AtTick Spared) (alone (Daemon.off true none false))
        (dialogWaiting ++ [.daemon w .tick]) := by
  intro c w
  have halive : c.daemon.alive = true := by decide
  have hidle : c.IdleParticipant "job_1_3" := by
    refine ⟨by decide, ?_, 2, "critic", by decide, by decide, by decide⟩
    obtain ⟨ch, hch, hstands⟩ := Option.map_eq_some_iff.mp (show
      (c.daemon.engine.store.getChannel "run_1_0:c").map (fun ch => (ch.participants, ch.closed)) =
        some (["job_1_2", "job_1_3"], false) by decide)
    obtain ⟨hparticipants, hclosed⟩ := Prod.mk.inj hstands
    exact ⟨"run_1_0:c", ch, hch, hparticipants ▸ by decide, hclosed⟩
  have htimed : ∃ x ∈ (c.daemon.step (w, .tick)).calls, timedOutBy x = some "job_1_3" := by
    decide
  have hnot : ¬ c.daemon.Refreshes w "job_1_3" := by
    intro h
    obtain ⟨x, hx, hk⟩ := htimed
    exact h.spared x hx hk
  exact ⟨by decide, halive, hidle, htimed, hnot,
    fun h => hnot ((Meets.append.mp h).2.1 halive "job_1_3" hidle)⟩

end Crew

end ZeptoPM
