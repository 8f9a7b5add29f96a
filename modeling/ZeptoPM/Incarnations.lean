import ZeptoPM.Fleet

/- The status that a managed entry should have: the last one that its own worker has
   reported or that the daemon has given to the entry. An update says neither which
   bridge has sent it nor whether its status means anything, so the daemon's copy is
   the right one exactly as long as no other update changes a status:
   `reflects_iff`. -/
namespace ZeptoPM.Fleet

/-! ## The right status -/

/-- The report is about the worker with which the entry that it names was spawned. -/
def Own (f : Fleet) (report : QueuedUpdate) : Prop :=
  report.handle = f.handle report.update.name ∧ report.ofWorker = true

instance (f : Fleet) (report : QueuedUpdate) : Decidable (f.Own report) :=
  inferInstanceAs (Decidable (_ ∧ _))

/-- What the step spawns for the entry. -/
def spawnedBy (f : Fleet) (i : FleetInput) (name : String) : Option Launch :=
  if f.launched.length ≤ (f.step i).handle name then (f.step i).launchOf name else none

/-- The status that a report of its own worker brings the entry to. -/
def reportedBy (f : Fleet) (i : FleetInput) (name : String) : Option AgentStatus :=
  match i, f.queue with
  | .deliver _, report :: _ =>
    if report.update.name = name ∧ f.Own report then
      (f.daemon.managed.get name).map (·.statusAfter report.update.status)
    else none
  | _, _ => none

/-- The right status of each entry after a step, given that before it. -/
def rightful (f : Fleet) (right : String → AgentStatus) (i : FleetInput) (name : String) :
    AgentStatus :=
  (((f.spawnedBy i name).map (·.status)).or (f.reportedBy i name)).getD (right name)

/-- A step of the fleet with the right status of each entry. -/
def watch (s : Fleet × (String → AgentStatus)) (i : FleetInput) :
    Fleet × (String → AgentStatus) :=
  (s.1.step i, rightful s.1 s.2 i)

/-- Every managed entry has the status that it should have. -/
def Reflects (s : Fleet × (String → AgentStatus)) : Prop :=
  ∀ name agent, s.1.daemon.managed.get name = some agent → agent.status = s.2 name

/-- An update that is taken is about the worker of the entry that it names, or leaves the
status of the entry as it is. -/
def Rightly (f : Fleet) : FleetInput → Prop
  | .deliver _ => ∀ report rest agent, f.queue = report :: rest →
      f.daemon.managed.get report.update.name = some agent →
      f.Own report ∨ agent.statusAfter report.update.status = agent.status
  | _ => True

/-! ## Handles -/

/-- Every entry has a handle of something that was spawned. -/
def Placed (f : Fleet) : Prop :=
  ∀ name agent, f.daemon.managed.get name = some agent → f.handle name < f.launched.length

section
variable {s : Site} {f f' : Fleet} {A : String → Prop} {i : FleetInput}
  {right : String → AgentStatus}

theorem placed_of_moves (h : Moves A f f') (hp : f.Placed) : f'.Placed := by
  intro name agent hget
  rcases h.entry name with ⟨hh, hm⟩ | ⟨_, l, hl, _⟩
  · rw [hh]
    rcases hm with hm | hm
    · exact Nat.lt_of_lt_of_le (hp name agent (hm ▸ hget)) h.length_le
    · rw [hm] at hget
      cases hget
  · exact (List.getElem?_eq_some_iff.mp hl).1

/-- The daemon takes the report, or there is no entry for it. -/
theorem deliver_cases (s : Site) {report : QueuedUpdate} {rest : List QueuedUpdate}
    (hq : f.queue = report :: rest) :
    (f.daemon.managed.get report.update.name = none ∧ (f.deliver s).daemon = f.daemon) ∨
    ∃ agent agent', f.daemon.managed.get report.update.name = some agent ∧
      agent'.status = agent.statusAfter report.update.status ∧
      ∀ k, (f.deliver s).daemon.managed.get k =
        if k = report.update.name then some agent' else f.daemon.managed.get k := by
  have hd : (f.deliver s).daemon = f.daemon.agentUpdate s.world report.update := by
    unfold deliver
    rw [hq]
  rw [hd]
  cases h : f.daemon.managed.get report.update.name with
  | none => exact Or.inl ⟨rfl, agentUpdate_of_missing h⟩
  | some agent =>
    obtain ⟨agent', hst, hget⟩ := agentUpdate_get (w := s.world) h
    exact Or.inr ⟨agent, agent', rfl, hst, hget⟩

theorem deliver_handle (s : Site) (f : Fleet) :
    (f.deliver s).handle = f.handle ∧ (f.deliver s).launched = f.launched := by
  unfold deliver
  split <;> exact ⟨rfl, rfl⟩

theorem deliver_nil (s : Site) (hq : f.queue = []) : f.deliver s = f := by
  unfold deliver
  rw [hq]

theorem placed_deliver (s : Site) (hp : f.Placed) : (f.deliver s).Placed := by
  intro name agent hget
  rw [(deliver_handle s f).1, (deliver_handle s f).2]
  cases hq : f.queue with
  | nil => exact hp name agent (deliver_nil s hq ▸ hget)
  | cons report rest =>
    rcases deliver_cases s hq with ⟨_, hd⟩ | ⟨old, agent', hold, _, hnew⟩
    · exact hp name agent (hd ▸ hget)
    · rw [hnew] at hget
      split at hget
      · rename_i hname
        exact hp name old (hname ▸ hold)
      · exact hp name agent hget

theorem placed_step (hp : f.Placed) (i : FleetInput) : (f.step i).Placed := by
  by_cases hi : ∃ s, i = .deliver s
  · obtain ⟨s, rfl⟩ := hi
    exact placed_deliver s hp
  · exact placed_of_moves (moves_step f i (fun s h => hi ⟨s, h⟩)) hp

theorem placed_boot (s : Site) (d : Daemon) (config : Config) : (boot s d config).Placed := by
  refine placed_of_moves (Moves.foldl (A := fun _ => True) _
    (fun agent _ f => (moves_spawnManagedAgent s f agent).mono (fun _ _ => True.intro)) _) ?_
  intro name agent hget
  cases hget

/-! ## One step -/

theorem spawnedBy_eq_none {name : String} (hh : (f.step i).handle name = f.handle name)
    (hlt : f.handle name < f.launched.length) : f.spawnedBy i name = none := by
  unfold spawnedBy
  rw [if_neg (by omega)]

theorem reportedBy_of_ne (hi : ∀ s, i ≠ .deliver s) (name : String) :
    f.reportedBy i name = none := by
  unfold reportedBy
  split
  · exact absurd rfl (hi _)
  · rfl

/-- No step but the taking of an update sets a status that is not right. -/
theorem reflects_moves (hp : f.Placed) (h : Reflects (f, right)) (hi : ∀ s, i ≠ .deliver s) :
    Reflects (watch (f, right) i) := by
  intro name agent hget
  show agent.status = (((f.spawnedBy i name).map (·.status)).or (f.reportedBy i name)).getD _
  rw [reportedBy_of_ne hi, Option.or_none]
  rcases (moves_step f i hi).entry name with ⟨hh, hm⟩ | ⟨hle, l, hl, hst, _⟩
  · have hsame : (f.step i).daemon.managed.get name = f.daemon.managed.get name := by
      rcases hm with hm | hm
      · exact hm
      · have hget : (f.step i).daemon.managed.get name = some agent := hget
        rw [hm] at hget
        cases hget
    have hget : f.daemon.managed.get name = some agent := hsame ▸ hget
    rw [spawnedBy_eq_none hh (hp name agent hget)]
    exact h name agent hget
  · unfold spawnedBy
    rw [if_pos hle, hl]
    exact hst agent hget

/-- What is right for an entry changes only with a report of its own worker. -/
theorem rightful_deliver (hp : f.Placed) (s : Site) {name : String} {agent : InternalAgent}
    (hget : f.daemon.managed.get name = some agent) :
    rightful f right (.deliver s) name = (f.reportedBy (.deliver s) name).getD (right name) := by
  have hh : (f.step (.deliver s)).handle name = f.handle name :=
    congrFun (deliver_handle s f).1 name
  unfold rightful
  rw [spawnedBy_eq_none hh (hp name agent hget)]
  rfl

theorem reportedBy_deliver (s : Site) {report : QueuedUpdate} {rest : List QueuedUpdate}
    (hq : f.queue = report :: rest) (name : String) : f.reportedBy (.deliver s) name =
      if report.update.name = name ∧ f.Own report then
        (f.daemon.managed.get name).map (·.statusAfter report.update.status) else none := by
  unfold reportedBy
  rw [hq]

/-- Nothing is taken. -/
theorem reflects_undelivered (hp : f.Placed) (h : Reflects (f, right)) (s : Site)
    (hd : (f.deliver s).daemon = f.daemon)
    (hno : ∀ name agent, f.daemon.managed.get name = some agent →
      f.reportedBy (.deliver s) name = none) : Reflects (watch (f, right) (.deliver s)) := by
  intro name agent hget
  have hold : f.daemon.managed.get name = some agent := hd ▸ hget
  show agent.status = rightful f right (.deliver s) name
  rw [rightful_deliver hp s hold, hno name agent hold]
  exact h name agent hold

/-- The entry `old` takes the report and becomes `new`. -/
theorem reflects_delivered (hp : f.Placed) (h : Reflects (f, right)) (s : Site)
    {report : QueuedUpdate} {rest : List QueuedUpdate} (hq : f.queue = report :: rest)
    {old new : InternalAgent} (hold : f.daemon.managed.get report.update.name = some old)
    (hst : new.status = old.statusAfter report.update.status)
    (hnew : ∀ k, (f.deliver s).daemon.managed.get k =
      if k = report.update.name then some new else f.daemon.managed.get k) :
    Reflects (watch (f, right) (.deliver s)) ↔
      f.Own report ∨ old.statusAfter report.update.status = old.status := by
  refine ⟨?_, ?_⟩
  · intro hafter
    by_cases hown : f.Own report
    · exact Or.inl hown
    · right
      have hlast : new.status = rightful f right (.deliver s) report.update.name :=
        hafter _ new ((hnew _).trans (if_pos rfl))
      rw [rightful_deliver hp s hold, reportedBy_deliver s hq, if_neg (fun hx => hown hx.2),
        hst] at hlast
      exact hlast.trans (h _ old hold).symm
  · intro hrightly name agent hget
    have hget : (f.deliver s).daemon.managed.get name = some agent := hget
    show agent.status = rightful f right (.deliver s) name
    rw [hnew] at hget
    split at hget
    · rename_i hname
      cases hget
      subst hname
      rw [rightful_deliver hp s hold, reportedBy_deliver s hq, hst]
      rcases hrightly with hown | hleave
      · rw [if_pos ⟨rfl, hown⟩, hold]
        rfl
      · split
        · rw [hold]
          rfl
        · exact hleave.trans (h _ old hold)
    · rename_i hname
      rw [rightful_deliver hp s hget, reportedBy_deliver s hq,
        if_neg (fun hx => hname hx.1.symm)]
      exact h name agent hget

/-- Taking an update keeps the statuses right exactly if it is taken rightly. -/
theorem reflects_deliver (hp : f.Placed) (h : Reflects (f, right)) (s : Site) :
    Reflects (watch (f, right) (.deliver s)) ↔ f.Rightly (.deliver s) := by
  cases hq : f.queue with
  | nil =>
    have hno : ∀ name, f.reportedBy (.deliver s) name = none := by
      intro name
      unfold reportedBy
      rw [hq]
    refine iff_of_true (reflects_undelivered hp h s (by rw [deliver_nil s hq])
      (fun name _ _ => hno name)) ?_
    intro report rest agent hcons
    rw [hq] at hcons
    cases hcons
  | cons report rest =>
    rcases deliver_cases s hq with ⟨hnone, hd⟩ | ⟨old, new, hold, hst, hnew⟩
    · refine iff_of_true (reflects_undelivered hp h s hd ?_) ?_
      · intro name agent hget
        rw [reportedBy_deliver s hq, if_neg]
        intro hname
        rw [← hname.1, hnone] at hget
        cases hget
      · intro report' rest' agent hcons hget
        rw [hq] at hcons
        cases hcons
        rw [hnone] at hget
        cases hget
    · rw [reflects_delivered hp h s hq hold hst hnew]
      refine ⟨?_, ?_⟩
      · intro hrightly report' rest' agent hcons hget
        rw [hq] at hcons
        cases hcons
        rw [hold] at hget
        cases hget
        exact hrightly
      · intro hrightly
        exact hrightly report rest old hq hold

theorem reflects_step (hp : f.Placed) (h : Reflects (f, right)) (i : FleetInput) :
    Reflects (watch (f, right) i) ↔ f.Rightly i := by
  by_cases hi : ∃ s, i = .deliver s
  · obtain ⟨s, rfl⟩ := hi
    exact reflects_deliver hp h s
  · have hi : ∀ s, i ≠ .deliver s := fun s h => hi ⟨s, h⟩
    refine iff_of_true (reflects_moves hp h hi) ?_
    unfold Rightly
    split
    · exact absurd rfl (hi _)
    · exact True.intro

end

/-! ## Runs -/

theorem reflects_boot (s : Site) (d : Daemon) (config : Config) :
    Reflects (boot s d config, fun _ => .starting) := by
  suffices h : ∀ (agents : List AgentConfig) (f : Fleet), Reflects (f, fun _ => .starting) →
      Reflects (agents.foldl (spawnManagedAgent s) f, fun _ => .starting) by
    apply h
    intro name agent hget
    cases hget
  intro agents
  induction agents with
  | nil => exact fun _ h => h
  | cons agent agents ih =>
    intro f h
    apply ih
    intro name agent' hget
    have hget : (f.daemon.spawnManagedAgent agent).managed.get name = some agent' := hget
    rw [spawnManagedAgent_get] at hget
    split at hget
    · cases hget
      rfl
    · exact h name agent' hget

/-- From the start of the process on, in any order of steps of the bridges and the daemon,
the daemon holds the right status of every entry as long as, and only as long as, each
update that it takes for an entry is about the entry's own worker or leaves the status as
it is. -/
theorem reflects_iff (s : Site) (d : Daemon) (config : Config) (is : List FleetInput) :
    (∀ pre, pre <+: is → Reflects (run watch (boot s d config, fun _ => .starting) pre)) ↔
      Meets watch (fun s i => s.1.Rightly i) (boot s d config, fun _ => .starting) is :=
  reached_iff (J := fun s => s.1.Placed) (fun _ i hp => placed_step hp i)
    (fun _ i hp _ h => reflects_step hp h i) (placed_boot s d config) (reflects_boot s d config)
    (.trivial _ is)

/-! ## A restart -/

/-- A site where nothing is configured but the agent. -/
def codingSite : Site where
  world := World.bare
  gateways := fun _ => none

def codingConfig : Config := { plainConfig with agents := [autoAgent "coder"] }

/-- The daemon has started the agent. -/
def coding : Fleet := boot codingSite (Daemon.off true none false) codingConfig

/-- The line by which a worker says that it has stopped. -/
def stoppedLine : Json := .obj [("type", .str "status"), ("status", .str "stopped")]

/-- The agent is restarted before the daemon has taken what its first worker sent. -/
def restarted : List FleetInput :=
  [.begins 0 (.spawned (some 1)), .deliver codingSite, .restart codingSite "coder",
    .bridge 0 (.stop true), .bridge 0 (.output stoppedLine), .begins 1 (.spawned (some 2)),
    .deliver codingSite]

/-- The stop of the worker that a restart replaces has the new one restarted. -/
theorem not_reflects_restarted :
    ¬ ∀ pre, pre <+: restarted → Reflects (run watch (coding, fun _ => .starting) pre) := by
  intro h
  have hlast := h restarted List.prefix_rfl
  have hget : ((run watch (coding, fun _ => .starting) restarted).1.daemon.managed.get "coder").map
      (·.status) = some .restartPending := by decide
  obtain ⟨agent, hagent, hst⟩ := Option.map_eq_some_iff.mp hget
  have hright := hlast "coder" agent hagent
  rw [hst] at hright
  exact absurd hright (by decide)

end ZeptoPM.Fleet
