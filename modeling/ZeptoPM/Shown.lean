import ZeptoPM.Roster

/- What the server shows of an agent and what the daemon holds of it. Both follow from what has
   been said of the current incarnation, so they are one state but for the status, which a
   request to stop and a restart that is due change on one side only. In every interleaving
   (`roster_shows`) an agent is shown as long as it is managed, as it is, and the server refuses
   to start it only where the daemon would. -/
namespace ZeptoPM
open Daemon

/-! ## One incarnation -/

/-- The daemon's entry and the server's copy of an incarnation, given what has been said of it. -/
structure Tracks (name : String) (agent : InternalAgent) (sheet : Sheet)
    (copy : Option AgentState) (words : List Word) : Prop where
  started : ∃ t, sheet.startedAt = some t
  copied : copy = some (.told name agent.restartCount sheet.startedAt words)
  state : agent.state name sheet =
    { AgentState.told name agent.restartCount sheet.startedAt words with status := agent.status }
  status : agent.status = lastReported words ∨
    agent.status = .restartPending ∧ (lastReported words = .stopped ∨ lastReported words = .error)
  plain : lastStatus words ≠ .restartPending

section
variable {name : String} {agent : InternalAgent} {sheet : Sheet} {copy : Option AgentState}
  {words : List Word}

theorem tracks_new (hagent : agent.Fresh) (s : Site) :
    Tracks name agent (Roster.newSheet s) (some (agent.state name (Roster.newSheet s))) [] := by
  have hstate : agent.state name (Roster.newSheet s) =
      .told name agent.restartCount (Roster.newSheet s).startedAt [] := by
    unfold InternalAgent.state
    rw [hagent.status, hagent.lastError, hagent.tokensUsed, hagent.pid]
    rfl
  refine ⟨⟨_, rfl⟩, congrArg some hstate, ?_, Or.inl hagent.status, by decide⟩
  rw [hstate, hagent.status]
  rfl

theorem push_lastLogs {logs : List LogEntry} (h : sheet.logs = lastLogs logs)
    (log : Option LogEntry) : (sheet.push log).logs = lastLogs (logs ++ log.toList) := by
  cases log with
  | none =>
    rw [Option.toList_none, List.append_nil]
    exact h
  | some entry =>
    show pushLog sheet.logs entry = lastLogs (logs ++ [entry])
    rw [h, pushLog_lastLogs]

/-- What an update makes of the entry, before a restart is scheduled. -/
theorem Tracks.reported (h : Tracks name agent sheet copy words) {u : AgentStateUpdate}
    (hu : u.Ordinary) (log : Option LogEntry) :
    (agent.report u).state name (sheet.push log) =
      .told name agent.restartCount sheet.startedAt (words ++ [.report u log]) := by
  have hlastError : agent.lastError = ((reports words).filterMap (·.error)).getLast? :=
    congrArg AgentState.lastError h.state
  have hpid : agent.pid = ((reports words).filterMap (·.pid)).getLast? :=
    congrArg AgentState.pid h.state
  have hmessages : sheet.messagesHandled = 0 := congrArg AgentState.messagesHandled h.state
  have htokens : agent.tokensUsed = 0 := congrArg AgentState.tokensUsed h.state
  have hlogs : sheet.logs = lastLogs (words.filterMap (·.log)) := congrArg AgentState.logs h.state
  have hlog : (words ++ [Word.report u log]).filterMap (·.log) =
      words.filterMap (·.log) ++ log.toList := by
    rw [List.filterMap_append]
    cases log with
    | none => rfl
    | some entry => rfl
  show AgentState.mk name u.status agent.restartCount sheet.startedAt
    (u.error.or agent.lastError) sheet.messagesHandled (agent.tokensUsed + u.tokensDelta)
    (sheet.push log).logs (u.pid.or agent.pid) = _
  unfold AgentState.told
  rw [lastStatus_concat, last_report, last_report, hlog, ← push_lastLogs hlogs, ← hlastError,
    ← hpid, hmessages, htokens, hu.tokensDelta]
  rfl

theorem Tracks.report (h : Tracks name agent sheet copy words) {u : AgentStateUpdate}
    (hu : u.Ordinary) (log : Option LogEntry) (w : World) :
    Tracks name (InternalAgent.scheduleRestart w (agent.report u)) (sheet.push log)
      (some ((agent.report u).state name (sheet.push log))) (words ++ [.report u log]) := by
  have hreported := h.reported hu log
  have hlast : lastReported (words ++ [.report u log]) = u.status := lastReported_report words u log
  have hcount : (InternalAgent.scheduleRestart w (agent.report u)).restartCount =
      agent.restartCount := by
    unfold InternalAgent.scheduleRestart
    split <;> rfl
  have hscheduled : (InternalAgent.scheduleRestart w (agent.report u)).state name (sheet.push log) =
      { (agent.report u).state name (sheet.push log) with
        status := (InternalAgent.scheduleRestart w (agent.report u)).status } := by
    unfold InternalAgent.scheduleRestart
    split <;> rfl
  refine ⟨h.started, ?_, ?_, ?_, ?_⟩
  · rw [hcount]
    exact congrArg some hreported
  · rw [hscheduled, hreported, hcount]
    rfl
  · rw [hlast]
    unfold InternalAgent.scheduleRestart
    split
    · rename_i hends
      exact Or.inr ⟨rfl, hends.1⟩
    · exact Or.inl rfl
  · rw [lastStatus_concat]
    exact hu.status

/-- A request to stop changes the status of the copy alone. -/
theorem Tracks.stop (h : Tracks name agent sheet copy words) :
    Tracks name agent sheet (copy.map (fun state => { state with status := .stopped }))
      (words ++ [.stop]) := by
  have htold : ∀ n t, ({ AgentState.told name n t words with status := .stopped } : AgentState) =
      .told name n t (words ++ [.stop]) := by
    intro n t
    have hlog : (words ++ [Word.stop]).filterMap (·.log) = words.filterMap (·.log) := by
      rw [List.filterMap_append]
      exact List.append_nil _
    unfold AgentState.told
    rw [lastStatus_concat, reports_stop, hlog]
    rfl
  have hlast : lastReported (words ++ [.stop]) = lastReported words := by
    unfold lastReported
    rw [reports_stop]
  refine ⟨h.started, ?_, ?_, ?_, ?_⟩
  · rw [h.copied, Option.map_some, htold]
  · rw [h.state, ← htold]
  · rw [hlast]
    exact h.status
  · rw [lastStatus_concat]
    decide

end

/-! ## The fleet's part -/

namespace Fleet

/-- No entry has a handle of another agent. -/
def Seated (f : Fleet) : Prop :=
  ∀ name agent, f.daemon.managed.get name = some agent →
    ∃ l, f.launchOf name = some l ∧ ∀ k, l = .agent k → k = name

/-- Entries and copies have handles of their own. -/
structure Enrolled (f : Fleet) : Prop where
  mirrored : f.Mirrored
  seated : f.Seated
  registered : ∀ name m, f.shared.agents.get name = some m →
    f.launched[m.handle]? = some (.agent name)

/-- Of every agent the entry is the one that there was, or that of an incarnation that has just
been spawned. -/
structure Renews (f f' : Fleet) : Prop where
  launched : f.launched <+: f'.launched
  entry : ∀ name, ¬ JobWorker name →
    (f'.handle name = f.handle name ∧ ∀ agent, f'.daemon.managed.get name = some agent →
      f.daemon.managed.get name = some agent) ∨
    (f.launched.length ≤ f'.handle name ∧ f'.launchOf name = some (.agent name) ∧
      ∀ agent, f'.daemon.managed.get name = some agent → agent.Fresh)

section
variable {s : Site} {f f' f'' : Fleet} {name : String}

theorem Renews.same (hl : f'.launched = f.launched) (hm : ∀ name, ¬ JobWorker name →
    f'.handle name = f.handle name ∧ ∀ agent, f'.daemon.managed.get name = some agent →
      f.daemon.managed.get name = some agent) : Renews f f' :=
  ⟨by rw [hl], fun name hname => Or.inl (hm name hname)⟩

theorem Renews.trans (h : Renews f f') (h' : Renews f' f'') : Renews f f'' := by
  refine ⟨h.launched.trans h'.launched, fun name hname => ?_⟩
  rcases h'.entry name hname with ⟨hhandle', hget'⟩ | ⟨hle', hlaunch', hfresh'⟩
  · rcases h.entry name hname with ⟨hhandle, hget⟩ | ⟨hle, hlaunch, hfresh⟩
    · exact Or.inl ⟨hhandle'.trans hhandle, fun agent hagent => hget agent (hget' agent hagent)⟩
    · refine Or.inr ⟨?_, ?_, fun agent hagent => hfresh agent (hget' agent hagent)⟩
      · rw [hhandle']
        exact hle
      · unfold launchOf
        rw [hhandle']
        exact getElem?_of_grown h'.launched hlaunch
  · exact Or.inr ⟨h.launched.length_le.trans hle', hlaunch', hfresh'⟩

theorem renews_enlist {d : Daemon} {agent : InternalAgent} (hagent : agent.Fresh)
    (hd : ∀ k, d.managed.get k = if k = name then some agent else f.daemon.managed.get k) :
    Renews f (f.enlist s name d) := by
  refine ⟨⟨[.agent name], rfl⟩, fun k _ => ?_⟩
  have hhandle : (f.enlist s name d).handle k =
      if k = name then f.launched.length else f.handle k := rfl
  have hget : (f.enlist s name d).daemon.managed.get k =
      if k = name then some agent else f.daemon.managed.get k := hd k
  by_cases hk : k = name
  · rw [if_pos hk] at hhandle hget
    refine Or.inr ⟨hhandle.ge, ?_, ?_⟩
    · unfold launchOf
      rw [hhandle, hk]
      exact List.getElem?_concat_length
    · intro agent' hagent'
      rw [hget] at hagent'
      cases hagent'
      exact hagent
  · rw [if_neg hk] at hhandle hget
    exact Or.inl ⟨hhandle, fun agent' hagent' => hget ▸ hagent'⟩

theorem composed_renews (s : Site) : Composed s Renews where
  refl := fun _ => .same rfl (fun _ _ => ⟨rfl, fun _ h => h⟩)
  trans := .trans
  enlist := fun _ _ _ _ hagent hd => renews_enlist hagent hd
  drop := by
    intro f name d hd
    refine .same rfl (fun k _ => ⟨rfl, fun agent hagent => ?_⟩)
    rw [show d.managed.get k = _ from hd k] at hagent
    split at hagent
    · cases hagent
    · exact hagent
  worker := by
    intro f d launch jobId hd
    refine ⟨⟨[launch], rfl⟩, fun k hk => Or.inl ⟨if_neg (fun h => hk ⟨jobId, h⟩), ?_⟩⟩
    exact fun agent hagent => hd k hk ▸ hagent
  aside := fun f d hd => .same rfl (fun k hk => ⟨rfl, fun agent hagent => hd k hk ▸ hagent⟩)

theorem seated_of_moves {A : String → Prop} (h : Moves A f f') (hf : f.Seated) :
    f'.Seated := by
  intro name agent hagent
  rcases h.entry name with ⟨hhandle, hget⟩ | ⟨_, l, hl, _, hkind⟩
  · rcases hget with hget | hget
    · obtain ⟨l, hl, hname⟩ := hf name agent (hget ▸ hagent)
      obtain ⟨ls, hls, _⟩ := h.launched
      refine ⟨l, ?_, hname⟩
      unfold launchOf
      rw [hhandle]
      exact getElem?_of_grown ⟨ls, hls.symm⟩ hl
    · rw [hget] at hagent
      cases hagent
  · refine ⟨l, hl, fun k hk => ?_⟩
    rcases hkind with hkind | hkind
    · rw [hkind] at hk
      cases hk
      rfl
    · rw [hk] at hkind
      cases hkind

theorem seated_deliver (s : Site) (hf : f.Seated) : (f.deliver s).Seated := by
  intro name agent hagent
  have hold : ∃ old, f.daemon.managed.get name = some old := by
    cases hq : f.queue with
    | nil =>
      rw [deliver_nil s hq] at hagent
      exact ⟨agent, hagent⟩
    | cons report rest =>
      rcases deliver_cases s hq with ⟨_, hd⟩ | ⟨old, agent', hold, _, hnew⟩
      · exact ⟨agent, hd ▸ hagent⟩
      · rw [hnew] at hagent
        split at hagent
        · rename_i hname
          exact ⟨old, hname ▸ hold⟩
        · exact ⟨agent, hagent⟩
  obtain ⟨old, hold⟩ := hold
  unfold launchOf
  rw [(deliver_handle s f).1, (deliver_handle s f).2]
  exact hf name old hold

theorem seated_step (hf : f.Seated) (i : FleetInput) : (f.step i).Seated := by
  by_cases hi : ∃ s, i = .deliver s
  · obtain ⟨s, rfl⟩ := hi
    exact seated_deliver s hf
  · exact seated_of_moves (moves_step f i (fun s hs => hi ⟨s, hs⟩)) hf

/-- Nothing is asked of the gateway configs. -/
theorem meeting_any (i : FleetInput) :
    Meeting (fun s => ∀ name, (fun _ => True) (s.gateways name)) i := by
  cases i with
  | deliver s | start s name | restart s name | reload s | restartAgents s | spawnJob s job =>
    exact fun _ => True.intro
  | _ => exact True.intro

theorem registered_of_tends (h : Tends (fun _ => True) f f')
    (hf : ∀ name m, f.shared.agents.get name = some m →
      f.launched[m.handle]? = some (.agent name)) :
    ∀ name m, f'.shared.agents.get name = some m →
      f'.launched[m.handle]? = some (.agent name) := by
  intro name m' hm'
  rcases h.entry name m' hm' with ⟨m, hm, hhandle, _⟩ | hnew
  · rw [hhandle]
    exact getElem?_of_grown h.launched (hf name m hm)
  · exact hnew.1

theorem enrolled_step (h : f.Enrolled) (i : FleetInput) : (f.step i).Enrolled := by
  have htends : Tends (fun _ => True) f (f.step i) := tends_step f i (meeting_any i)
  exact ⟨htends.mirrored h.mirrored, seated_step h.seated i,
    registered_of_tends htends h.registered⟩

theorem traffic_handles {i : FleetInput} (hi : Handles s i) : (f.step i).traffic = f.traffic := by
  cases i with
  | start s' name => exact traffic_startAgent s' f name
  | restart s' name => exact traffic_restartAgent s' f name
  | reload s' => exact traffic_reloadConfig s' f
  | restartAgents s' => exact traffic_restartAgents s' f
  | spawnJob s' job => exact traffic_spawnJobWorker s' f job
  | dropJob jobId => rfl
  | elsewhere d => rfl
  | _ => exact hi.elim

end
end Fleet

/-! ## Every step -/

namespace Roster

structure Sound (r : Roster) : Prop where
  enrolled : r.fleet.Enrolled
  tracks : ∀ name agent, ¬ JobWorker name → r.fleet.daemon.managed.get name = some agent →
    Tracks name agent (r.sheets (r.fleet.handle name)) (r.copies (r.fleet.handle name))
      (r.words (r.fleet.handle name))
  /-- Nothing has been said of what has not been spawned. -/
  unborn : ∀ n, r.fleet.launched.length ≤ n → r.words n = []
  /-- Each update of the queue goes with what is logged. -/
  paired : r.logs.length = r.fleet.queue.length
  ordinary : ∀ report ∈ r.fleet.queue, report.update.Ordinary

section
variable {r : Roster} {s : Site}

/-- What the agent is known by is in the fleet. -/
theorem Sound.launched (h : r.Sound) {name : String} {agent : InternalAgent}
    (hagent : r.fleet.daemon.managed.get name = some agent) :
    r.fleet.handle name < r.fleet.launched.length := by
  obtain ⟨l, hl, _⟩ := h.enrolled.seated name agent hagent
  exact (List.getElem?_eq_some_iff.mp hl).1

/-- The copy of a managed agent has its handle. -/
theorem Sound.copy_handle (h : r.Sound) {name : String} (hname : ¬ JobWorker name)
    {agent : InternalAgent} (hagent : r.fleet.daemon.managed.get name = some agent) :
    ∃ m, r.fleet.shared.agents.get name = some m ∧ m.handle = r.fleet.handle name := by
  have hmirrored := h.enrolled.mirrored name hname
  rw [hagent, Option.map_some] at hmirrored
  exact Option.map_eq_some_iff.mp hmirrored

/-- No other agent has the handle of the copy. -/
theorem Sound.copy_ne (h : r.Sound) {name k : String} {m : ManagedAgentRef}
    (hm : r.fleet.shared.agents.get name = some m) {agent : InternalAgent}
    (hk : r.fleet.daemon.managed.get k = some agent) (hne : k ≠ name) :
    r.fleet.handle k ≠ m.handle := by
  intro heq
  obtain ⟨l, hl, hown⟩ := h.enrolled.seated k agent hk
  have hm' : r.fleet.launched[m.handle]? = some (.agent name) := h.enrolled.registered name m hm
  unfold Fleet.launchOf at hl
  rw [heq, hm'] at hl
  exact hne (hown name (Option.some.inj hl).symm).symm

/-- Two entries have two handles, if one is of an agent. -/
theorem Sound.handle_ne (h : r.Sound) {name k : String} (hname : ¬ JobWorker k)
    {agent agent' : InternalAgent} (hn : r.fleet.daemon.managed.get name = some agent)
    (hk : r.fleet.daemon.managed.get k = some agent') (hne : k ≠ name) :
    r.fleet.handle k ≠ r.fleet.handle name := by
  obtain ⟨m, hm, hhandle⟩ := h.copy_handle hname hk
  rw [← hhandle]
  exact (h.copy_ne hm hn (Ne.symm hne)).symm

theorem spawning_of_lt (s : Site) (f : Fleet) {n : Nat} (hn : n < r.fleet.launched.length) :
    (r.spawning s f).sheets n = r.sheets n ∧ (r.spawning s f).copies n = r.copies n :=
  ⟨if_pos hn, if_pos hn⟩

theorem spawning_of_le (s : Site) (f : Fleet) {n : Nat} (hn : r.fleet.launched.length ≤ n) :
    (r.spawning s f).sheets n = newSheet s ∧ (r.spawning s f).copies n = newCopy s f n :=
  ⟨if_neg (Nat.not_lt.mpr hn), if_neg (Nat.not_lt.mpr hn)⟩

theorem newCopy_of_launch {f : Fleet} {name : String} {agent : InternalAgent}
    (hl : f.launchOf name = some (.agent name)) (hagent : f.daemon.managed.get name = some agent) :
    newCopy s f (f.handle name) = some (agent.state name (newSheet s)) := by
  unfold newCopy
  unfold Fleet.launchOf at hl
  rw [hl]
  dsimp only
  rw [hagent, Option.map_some]

/-- What is on its way is as it was, and what there is was there or has just been spawned. -/
theorem sound_renewed (h : r.Sound) {f : Fleet} (hf : f.Enrolled)
    (hrenews : Fleet.Renews r.fleet f) (htraffic : f.traffic = r.fleet.traffic) :
    (r.spawning s f).Sound := by
  have hqueue : f.queue = r.fleet.queue := congrArg Prod.snd htraffic
  refine ⟨hf, fun name agent hname hagent => ?_, fun n hn => ?_, ?_, ?_⟩
  · have hagent : f.daemon.managed.get name = some agent := hagent
    show Tracks name agent ((r.spawning s f).sheets (f.handle name))
      ((r.spawning s f).copies (f.handle name)) (r.words (f.handle name))
    rcases hrenews.entry name hname with ⟨hhandle, hold⟩ | ⟨hle, hlaunch, hfresh⟩
    · have hsame := spawning_of_lt s f (h.launched (hold agent hagent))
      rw [hhandle, hsame.1, hsame.2]
      exact h.tracks name agent hname (hold agent hagent)
    · have hnew := spawning_of_le s f hle
      rw [hnew.1, hnew.2, h.unborn _ hle, newCopy_of_launch hlaunch hagent]
      exact tracks_new (hfresh agent hagent) s
  · exact h.unborn n (hrenews.launched.length_le.trans hn)
  · show r.logs.length = f.queue.length
    rw [hqueue]
    exact h.paired
  · intro report hreport
    exact h.ordinary report (hqueue ▸ hreport)

/-- The daemon handles something. -/
theorem sound_spawning (h : r.Sound) {i : FleetInput} (hi : Fleet.Handles s i) :
    (r.spawning s (r.fleet.step i)).Sound :=
  sound_renewed h (Fleet.enrolled_step h.enrolled i)
    ((Fleet.composed_renews s).handles r.fleet hi) (Fleet.traffic_handles hi)

/-- The daemon handles something that spawns nothing. -/
theorem sound_aside (h : r.Sound) {i : FleetInput} (hi : Fleet.Handles s i)
    (hl : (r.fleet.step i).launched = r.fleet.launched) :
    ({ r with fleet := r.fleet.step i } : Roster).Sound := by
  have hspawning := sound_spawning h hi
  refine ⟨hspawning.enrolled, fun name agent hname hagent => ?_, hspawning.unborn,
    hspawning.paired, hspawning.ordinary⟩
  have htracks := hspawning.tracks name agent hname hagent
  have hlt : (r.fleet.step i).handle name < r.fleet.launched.length :=
    hl ▸ hspawning.launched hagent
  have hsame := spawning_of_lt s (r.fleet.step i) hlt
  exact hsame.1 ▸ hsame.2 ▸ htracks

/-- A bridge queues updates, each with what is logged. -/
theorem sound_traffic (h : r.Sound) {i : FleetInput} {logs : List (Option LogEntry)}
    {bridges : HashMap Nat Bridge} {us : List QueuedUpdate}
    (hi : r.fleet.step i = { r.fleet with bridges := bridges, queue := r.fleet.queue ++ us })
    (hlen : us.length = logs.length) (hus : ∀ u ∈ us, u.update.Ordinary) :
    ({ r with fleet := r.fleet.step i, logs := r.logs ++ logs } : Roster).Sound := by
  have henrolled := Fleet.enrolled_step h.enrolled i
  rw [hi] at henrolled ⊢
  refine ⟨henrolled, h.tracks, h.unborn, ?_, ?_⟩
  · show (r.logs ++ logs).length = (r.fleet.queue ++ us).length
    rw [List.length_append, List.length_append, h.paired, hlen]
  · intro report hreport
    exact (List.mem_append.mp hreport).elim (h.ordinary report) (hus report)

theorem length_makeLogs (utcNow : Nat → String) (logs : List (Option (String × String))) :
    (makeLogs utcNow logs).length = logs.length := by
  unfold makeLogs
  rw [List.length_map, List.length_zipIdx]

theorem sound_begins (h : r.Sound) (handle : Nat) (start : BridgeStart) (utcNow : Nat → String) :
    (r.begins handle start utcNow).Sound := by
  unfold begins
  split
  · rename_i b hb hnone
    have hbegins : r.fleet.step (.begins handle start) =
        { r.fleet with
          bridges := r.fleet.bridges.insert handle b
          queue := r.fleet.queue ++ b.updates.map (⟨handle, true, ·⟩) } := by
      show r.fleet.begins handle start = _
      unfold Fleet.begins
      rw [hb, hnone]
    have hordinary : b.updates.length = (Bridge.startLogs start).length ∧
        ∀ u ∈ b.updates, u.Ordinary := by
      obtain ⟨launch, _, hlaunch⟩ := Option.bind_eq_some_iff.mp hb
      cases launch with
      | agent name =>
        cases hlaunch
        exact Bridge.ordinary_workerBridge ..
      | job profile jobId =>
        cases hlaunch
        exact Bridge.ordinary_workerBridge ..
      | capsule jobId => cases hlaunch
    refine sound_traffic (i := .begins handle start) h hbegins ?_ ?_
    · rw [List.length_map, length_makeLogs]
      exact hordinary.1
    · intro u hu
      obtain ⟨v, hv, rfl⟩ := List.mem_map.mp hu
      exact hordinary.2 v hv
  · exact h

theorem sound_bridge (h : r.Sound) (handle : Nat) (input : BridgeInput) (utcNow : Nat → String) :
    (r.bridgeStep handle input utcNow).Sound := by
  unfold bridgeStep
  split
  · exact h
  · rename_i b hb
    obtain ⟨us, hus, hlen, hordinary⟩ := Bridge.adds_step b input
    have hbridge : r.fleet.step (.bridge handle input) =
        { r.fleet with
          bridges := r.fleet.bridges.insert handle (b.step input)
          queue := r.fleet.queue ++ us.map (⟨handle, Fleet.aboutWorker input, ·⟩) } := by
      show r.fleet.bridgeStep handle input = _
      unfold Fleet.bridgeStep
      rw [hb]
      dsimp only
      rw [hus, List.drop_left]
    refine sound_traffic (i := .bridge handle input) h hbridge ?_ ?_
    · rw [List.length_map, length_makeLogs]
      exact hlen
    · intro u hu
      obtain ⟨v, hv, rfl⟩ := List.mem_map.mp hu
      exact hordinary v hv

theorem agentUpdate_report {w : World} {d : Daemon} {u : AgentStateUpdate} {agent : InternalAgent}
    (h : d.managed.get u.name = some agent) (k : String) :
    (d.agentUpdate w u).managed.get k =
      if k = u.name then some (InternalAgent.scheduleRestart w (agent.report u))
      else d.managed.get k := by
  unfold agentUpdate
  rw [h]
  exact HashMap.get_insert ..

/-- What the server has of others is left alone. -/
theorem copyState_ne (h : r.Sound) {name k : String} {agent : InternalAgent}
    (hk : r.fleet.daemon.managed.get k = some agent) (hne : k ≠ name) (state : AgentState) :
    r.copyState name state (r.fleet.handle k) = r.copies (r.fleet.handle k) := by
  unfold copyState
  cases hm : r.fleet.shared.agents.get name with
  | none => rfl
  | some m => exact Function.update_of_ne (h.copy_ne hm hk hne) ..

theorem copyState_self (h : r.Sound) {name : String} (hname : ¬ JobWorker name)
    {agent : InternalAgent} (hagent : r.fleet.daemon.managed.get name = some agent)
    (state : AgentState) : r.copyState name state (r.fleet.handle name) = some state := by
  obtain ⟨m, hm, hhandle⟩ := h.copy_handle hname hagent
  unfold copyState
  rw [hm, ← hhandle]
  exact Function.update_self ..

theorem sound_deliver (h : r.Sound) (s : Site) : (r.deliver s).Sound := by
  have henrolled : (r.fleet.deliver s).Enrolled := Fleet.enrolled_step h.enrolled (.deliver s)
  obtain ⟨hhandle, hlaunched⟩ := Fleet.deliver_handle s r.fleet
  unfold deliver
  cases hq : r.fleet.queue with
  | nil => exact h
  | cons report rest =>
    have hqueue : (r.fleet.deliver s).queue = rest := by
      unfold Fleet.deliver
      rw [hq]
    have hdaemon : (r.fleet.deliver s).daemon =
        r.fleet.daemon.agentUpdate s.world report.update := by
      unfold Fleet.deliver
      rw [hq]
    have hpaired : r.logs.tail.length = (r.fleet.deliver s).queue.length := by
      have hlength := h.paired
      rw [hq] at hlength
      rw [hqueue, List.length_tail, hlength]
      rfl
    have hordinary : ∀ report' ∈ (r.fleet.deliver s).queue, report'.update.Ordinary := by
      intro report' hreport'
      rw [hqueue] at hreport'
      exact h.ordinary report' (hq ▸ List.mem_cons_of_mem _ hreport')
    dsimp only
    cases hget : r.fleet.daemon.managed.get report.update.name with
    | none =>
      refine ⟨henrolled, fun k agent hk hagent => ?_, fun n hn => ?_, hpaired, hordinary⟩
      · have hagent : (r.fleet.deliver s).daemon.managed.get k = some agent := hagent
        rw [hdaemon, Fleet.agentUpdate_of_missing hget] at hagent
        show Tracks k agent (r.sheets ((r.fleet.deliver s).handle k))
          (r.copies ((r.fleet.deliver s).handle k)) (r.words ((r.fleet.deliver s).handle k))
        rw [hhandle]
        exact h.tracks k agent hk hagent
      · exact h.unborn n (hlaunched ▸ hn)
    | some agent =>
      have hu : report.update.Ordinary := h.ordinary report (hq ▸ List.mem_cons_self)
      refine ⟨henrolled, fun k agent' hk hagent' => ?_, fun n hn => ?_, hpaired, hordinary⟩
      · have hagent' : (r.fleet.deliver s).daemon.managed.get k = some agent' := hagent'
        rw [hdaemon, agentUpdate_report hget] at hagent'
        dsimp only
        rw [hhandle]
        by_cases hname : k = report.update.name
        · rw [if_pos hname] at hagent'
          cases hagent'
          subst hname
          rw [Function.update_self, Function.update_self, copyState_self h hk hget]
          exact (h.tracks _ agent hk hget).report hu _ s.world
        · rw [if_neg hname] at hagent'
          have hne := h.handle_ne hk hget hagent' hname
          rw [Function.update_of_ne hne, Function.update_of_ne hne, copyState_ne h hagent' hname]
          exact h.tracks k agent' hk hagent'
      · have hne : n ≠ r.fleet.handle report.update.name := by
          have hlt := h.launched hget
          have hle : r.fleet.launched.length ≤ n := hlaunched ▸ hn
          omega
        show Function.update r.words _ _ n = []
        rw [Function.update_of_ne hne]
        exact h.unborn n (hlaunched ▸ hn)

theorem sound_postStop (h : r.Sound) (name : String) : (r.postStop name).Sound := by
  have henrolled : (r.fleet.step (.postStop name)).Enrolled :=
    Fleet.enrolled_step h.enrolled (.postStop name)
  unfold postStop
  dsimp only
  cases hm : r.fleet.shared.agents.get name with
  | none => exact ⟨henrolled, h.tracks, h.unborn, h.paired, h.ordinary⟩
  | some m =>
    have hlaunch := h.enrolled.registered name m hm
    refine ⟨henrolled, fun k agent hk hagent => ?_, fun n hn => ?_, h.paired, h.ordinary⟩
    · have hagent : r.fleet.daemon.managed.get k = some agent := hagent
      show Tracks k agent (r.sheets (r.fleet.handle k))
        (Function.update r.copies m.handle _ (r.fleet.handle k))
        (Function.update r.words m.handle _ (r.fleet.handle k))
      by_cases hname : k = name
      · subst hname
        obtain ⟨m', hm', hhandle⟩ := h.copy_handle hk hagent
        rw [hm] at hm'
        cases hm'
        rw [hhandle, Function.update_self, Function.update_self]
        exact (h.tracks k agent hk hagent).stop
      · have hne := h.copy_ne hm hagent hname
        rw [Function.update_of_ne hne, Function.update_of_ne hne]
        exact h.tracks k agent hk hagent
    · have hne : n ≠ m.handle := by
        have hlt := (List.getElem?_eq_some_iff.mp hlaunch).1
        have hle : r.fleet.launched.length ≤ n := hn
        omega
      show Function.update r.words m.handle _ n = []
      rw [Function.update_of_ne hne]
      exact h.unborn n hn

theorem sound_step (r : Roster) (x : RosterInput) (h : r.Sound) : (r.step x).Sound := by
  unfold step
  cases x.input with
  | begins handle start => exact sound_begins h handle start x.utcNow
  | bridge handle input => exact sound_bridge h handle input x.utcNow
  | postStop name => exact sound_postStop h name
  | deliver s => exact sound_deliver h s
  | start s name => exact sound_spawning (i := .start s name) h rfl
  | restart s name => exact sound_spawning (i := .restart s name) h rfl
  | reload s => exact sound_spawning (i := .reload s) h rfl
  | restartAgents s => exact sound_spawning (i := .restartAgents s) h rfl
  | spawnJob s job => exact sound_spawning (i := .spawnJob s job) h rfl
  | dropJob jobId =>
    exact sound_aside (s := Fleet.codingSite) (i := .dropJob jobId) h True.intro rfl
  | elsewhere d =>
    exact sound_aside (s := Fleet.codingSite) (i := .elsewhere d) h True.intro rfl

theorem sound_boot (s : Site) (d : Daemon) (config : Config) : (boot s d config).Sound := by
  let bare : Fleet :=
    { daemon := { d with
        alive := true
        managed := .empty
        currentConfig := config
        lastConfigHash := s.world.configHash config.hashed
        lastCleanup := s.world.instant }.act s.world .hydrate
      shared := .new
      handle := fun _ => 0
      launched := []
      bridges := .empty
      queue := [] }
  have hboot : Fleet.boot s d config =
    (config.agents.filter (·.autoStart)).foldl (Fleet.spawnManagedAgent s) bare := rfl
  have hbare : bare.Enrolled := by
    refine ⟨fun _ _ => rfl, ?_, ?_⟩
    · intro name agent hagent
      cases hagent
    · intro name m hm
      cases hm
  have htending : Fleet.Composed s (Fleet.Tends (fun _ => True)) :=
    Fleet.composed_tends (fun _ => True.intro)
  have htends : Fleet.Tends (fun _ => True) bare (Fleet.boot s d config) :=
    htending.foldl htending.spawnManagedAgent _ bare
  have hmoves : Fleet.Moves (fun _ => True) bare (Fleet.boot s d config) :=
    Fleet.Moves.foldl _ (fun agent _ f =>
      (Fleet.moves_spawnManagedAgent s f agent).mono (fun _ _ => True.intro)) bare
  have hrenews : Fleet.Renews bare (Fleet.boot s d config) :=
    (Fleet.composed_renews s).foldl (Fleet.composed_renews s).spawnManagedAgent _ bare
  have htraffic : (Fleet.boot s d config).traffic = bare.traffic :=
    Fleet.traffic_foldl (g := Fleet.spawnManagedAgent s) (fun _ _ => rfl) _ bare
  have henrolled : (Fleet.boot s d config).Enrolled :=
    ⟨htends.mirrored hbare.mirrored, Fleet.seated_of_moves hmoves hbare.seated,
      Fleet.registered_of_tends htends hbare.registered⟩
  have hfirst : Roster.Sound
      ⟨bare, fun _ => newSheet s, fun _ => none, [], fun _ => []⟩ := by
    refine ⟨hbare, ?_, fun _ _ => rfl, rfl, ?_⟩
    · intro name agent _ hagent
      cases hagent
    · intro report hreport
      cases hreport
  exact sound_renewed hfirst (s := s) henrolled hrenews htraffic

end

/-! ## What is shown -/

/-- What the server answers of an agent, which has a name that no job's worker shares. -/
structure Shown (r : Roster) (name : String) (agent : InternalAgent) (state : AgentState) :
    Prop where
  /-- It is all that has been said of the current incarnation. -/
  told : ∃ t, state = .told name agent.restartCount (some t) (r.words (r.fleet.handle name))
  /-- The daemon's own state is the same but for the status. -/
  same : agent.state name (r.sheets (r.fleet.handle name)) = { state with status := agent.status }
  /-- The status is the daemon's, unless a stop was asked for or a restart is due. -/
  status : state.status = agent.status ∨
    (r.words (r.fleet.handle name)).getLast? = some .stop ∧ state.status = .stopped ∨
    agent.status = .restartPending ∧ (state.status = .stopped ∨ state.status = .error)
  /-- So it is never shown that a restart is due. -/
  plain : state.status ≠ .restartPending

structure Shows (r : Roster) : Prop where
  /-- An agent is shown as long as the daemon manages it. -/
  found : ∀ name, ¬ JobWorker name →
    ((∃ state, r.agentCopy name = .ok state) ↔ r.fleet.daemon.managed.contains name = true)
  shown : ∀ name agent state, ¬ JobWorker name → r.fleet.daemon.managed.get name = some agent →
    r.agentCopy name = .ok state → r.Shown name agent state
  /-- A start that the server refuses is one that the daemon would refuse, in the same words. -/
  conflict : ∀ name message, ¬ JobWorker name → r.startConflict name = some message →
    r.fleet.daemon.startAgent name = r.fleet.daemon.send (.reply (.error message))
  /-- Where the daemon alone refuses it, a stop was asked for or a restart is due. -/
  passed : ∀ name agent, ¬ JobWorker name → r.fleet.daemon.managed.get name = some agent →
    agent.status ≠ .stopped ∧ agent.status ≠ .error → r.startConflict name = none →
      (r.words (r.fleet.handle name)).getLast? = some .stop ∨ agent.status = .restartPending
  /-- The list has each agent once, as it is shown by itself. -/
  listed : ∀ e now, ((r.getStatus e now).map (·.name)).Nodup ∧
    ∀ info, info ∈ r.getStatus e now ↔ ∃ name, r.getAgentStatus now name = .ok info

section
variable {r : Roster} {name : String} {agent : InternalAgent} {state : AgentState}

theorem agentCopy_ok (h : r.agentCopy name = .ok state) :
    ∃ m, r.fleet.shared.agents.get name = some m ∧ r.copies m.handle = some state := by
  unfold agentCopy at h
  split at h
  · cases h
  · rename_i state' hstate
    cases h
    exact Option.bind_eq_some_iff.mp hstate

theorem Sound.agentCopy (h : r.Sound) (hname : ¬ JobWorker name)
    (hagent : r.fleet.daemon.managed.get name = some agent) :
    ∃ t, (r.sheets (r.fleet.handle name)).startedAt = some t ∧ r.agentCopy name =
      .ok (.told name agent.restartCount (some t) (r.words (r.fleet.handle name))) := by
  have htracks := h.tracks name agent hname hagent
  obtain ⟨t, ht⟩ := htracks.started
  obtain ⟨m, hm, hhandle⟩ := h.copy_handle hname hagent
  refine ⟨t, ht, ?_⟩
  have hcopied := htracks.copied
  rw [ht] at hcopied
  unfold Roster.agentCopy
  rw [hm, Option.bind_some, hhandle, hcopied]

theorem Sound.managed (h : r.Sound) (hname : ¬ JobWorker name)
    (hstate : r.agentCopy name = .ok state) :
    ∃ agent, r.fleet.daemon.managed.get name = some agent := by
  obtain ⟨m, hm, _⟩ := agentCopy_ok hstate
  have hmirrored := h.enrolled.mirrored name hname
  rw [hm, Option.map_some] at hmirrored
  obtain ⟨agent, hagent, _⟩ := Option.map_eq_some_iff.mp hmirrored.symm
  exact ⟨agent, hagent⟩

theorem Sound.shown (h : r.Sound) (hname : ¬ JobWorker name)
    (hagent : r.fleet.daemon.managed.get name = some agent)
    (hstate : r.agentCopy name = .ok state) : r.Shown name agent state := by
  have htracks := h.tracks name agent hname hagent
  obtain ⟨t, ht, hcopy⟩ := h.agentCopy hname hagent
  rw [hcopy] at hstate
  cases hstate
  refine ⟨⟨t, rfl⟩, ht ▸ htracks.state, ?_, htracks.plain⟩
  show lastStatus (r.words (r.fleet.handle name)) = agent.status ∨ _
  rcases lastStatus_cases (r.words (r.fleet.handle name)) with hlast | hstop
  · rcases htracks.status with hstatus | ⟨hpending, hends⟩
    · exact Or.inl (hlast.trans hstatus.symm)
    · rw [← hlast] at hends
      exact Or.inr (Or.inr ⟨hpending, hends⟩)
  · exact Or.inr (Or.inl hstop)

theorem startConflict_some {message : String} (h : r.startConflict name = some message) :
    ∃ state, r.agentCopy name = .ok state ∧ state.status ≠ .stopped ∧ state.status ≠ .error ∧
      message = "agent '" ++ name ++ "' is already " ++ state.status.text := by
  unfold startConflict at h
  split at h
  · cases h
  · rename_i state hstate
    split at h
    · rename_i hrunning
      cases h
      exact ⟨state, hstate, hrunning.1, hrunning.2, rfl⟩
    · cases h

theorem Sound.conflict (h : r.Sound) (hname : ¬ JobWorker name) {message : String}
    (hmessage : r.startConflict name = some message) :
    r.fleet.daemon.startAgent name = r.fleet.daemon.send (.reply (.error message)) := by
  obtain ⟨state, hstate, hstopped, herror, rfl⟩ := startConflict_some hmessage
  obtain ⟨agent, hagent⟩ := h.managed hname hstate
  have hstatus : state.status = agent.status := by
    rcases (h.shown hname hagent hstate).status with hsame | ⟨_, hstop⟩ | ⟨_, hends⟩
    · exact hsame
    · exact absurd hstop hstopped
    · exact (hends.elim hstopped herror).elim
  rw [hstatus] at hstopped herror ⊢
  unfold startAgent
  rw [hagent]
  exact if_pos ⟨hstopped, herror⟩

theorem Sound.passed (h : r.Sound) (hname : ¬ JobWorker name)
    (hagent : r.fleet.daemon.managed.get name = some agent)
    (hrunning : agent.status ≠ .stopped ∧ agent.status ≠ .error)
    (hnone : r.startConflict name = none) :
    (r.words (r.fleet.handle name)).getLast? = some .stop ∨ agent.status = .restartPending := by
  obtain ⟨t, _, hcopy⟩ := h.agentCopy hname hagent
  rcases (h.shown hname hagent hcopy).status with hsame | ⟨hstop, _⟩ | ⟨hpending, _⟩
  · unfold startConflict at hnone
    rw [hcopy] at hnone
    dsimp only at hnone
    rw [hsame, if_pos hrunning] at hnone
    cases hnone
  · exact Or.inl hstop
  · exact Or.inr hpending

theorem agentToInfo_name {now : Instant} {info : AgentInfo}
    (h : r.getAgentStatus now name = .ok info) : info.name = name := by
  unfold getAgentStatus at h
  cases hcopy : r.agentCopy name with
  | error e =>
    rw [hcopy] at h
    cases h
  | ok state =>
    rw [hcopy] at h
    cases h
    rfl

theorem toOption_eq_some {ε α : Type} {x : Except ε α} {a : α} :
    x.toOption = some a ↔ x = .ok a := by
  cases x with
  | error e => exact iff_of_false (by simp [Except.toOption]) (by simp)
  | ok b => simp [Except.toOption]

theorem map_filterMap_sublist {α β : Type} {f : α → Option β} {g : β → α}
    (h : ∀ a b, f a = some b → g b = a) (l : List α) : ((l.filterMap f).map g).Sublist l := by
  induction l with
  | nil => exact List.Sublist.slnil
  | cons a l ih =>
    cases hb : f a with
    | none =>
      rw [List.filterMap_cons_none hb]
      exact ih.cons a
    | some b =>
      rw [List.filterMap_cons_some hb, List.map_cons, h a b hb]
      exact ih.cons_cons a

theorem getStatus_listed (r : Roster) (e : Enumeration String) (now : Instant) :
    ((r.getStatus e now).map (·.name)).Nodup ∧
      ∀ info, info ∈ r.getStatus e now ↔ ∃ name, r.getAgentStatus now name = .ok info := by
  unfold getStatus
  refine ⟨?_, fun info => ?_⟩
  · have hname : ∀ name info, (r.getAgentStatus now name).toOption = some info →
        info.name = name := fun _ _ h => agentToInfo_name (toOption_eq_some.mp h)
    exact (map_filterMap_sublist hname _).nodup (HashMap.keysIn_nodup ..)
  · rw [List.mem_filterMap]
    refine ⟨fun hinfo => ?_, fun hinfo => ?_⟩
    · obtain ⟨name, _, hname⟩ := hinfo
      exact ⟨name, toOption_eq_some.mp hname⟩
    · obtain ⟨name, hname⟩ := hinfo
      refine ⟨name, ?_, toOption_eq_some.mpr hname⟩
      unfold getAgentStatus at hname
      cases hcopy : r.agentCopy name with
      | error e =>
        rw [hcopy] at hname
        cases hname
      | ok state =>
        obtain ⟨m, hm, _⟩ := agentCopy_ok hcopy
        exact HashMap.mem_keysIn.mpr ⟨m, hm⟩

theorem Sound.shows (h : r.Sound) : r.Shows where
  found := by
    intro name hname
    unfold HashMap.contains
    refine ⟨fun hstate => ?_, fun hagent => ?_⟩
    · obtain ⟨state, hstate⟩ := hstate
      obtain ⟨agent, hagent⟩ := h.managed hname hstate
      rw [hagent]
      rfl
    · obtain ⟨agent, hagent⟩ := Option.isSome_iff_exists.mp hagent
      obtain ⟨t, _, hcopy⟩ := h.agentCopy hname hagent
      exact ⟨_, hcopy⟩
  shown := fun _ _ _ hname hagent hstate => h.shown hname hagent hstate
  conflict := fun _ _ hname hmessage => h.conflict hname hmessage
  passed := fun _ _ hname hagent hrunning hnone => h.passed hname hagent hrunning hnone
  listed := fun e now => getStatus_listed r e now

end

/-- From the start of the process on, in every order of the steps. -/
theorem roster_shows (s : Site) (d : Daemon) (config : Config) (xs : List RosterInput) :
    (run step (boot s d config) xs).Shows :=
  (run_invariant (G := fun _ _ => True) (fun r x h _ => sound_step r x h) (sound_boot s d config)
    (.trivial _ xs)).shows

/-- A request to stop comes when the daemon has heard of the agent's worker. -/
def askedToStop : Roster :=
  run step (boot Fleet.codingSite (Daemon.off true none false) Fleet.codingConfig)
    ([.begins 0 (.spawned (some 1)), .deliver Fleet.codingSite, .postStop "coder"].map
      (⟨·, fun _ => "now"⟩))

/-- The server then shows the agent as stopped, which it is not yet for the daemon. -/
example : (askedToStop.getAgentStatus 0 "coder").toOption.map (·.status) = some "stopped" ∧
    askedToStop.startConflict "coder" = none ∧
    (askedToStop.fleet.daemon.managed.get "coder").map (·.status) = some .starting := by
  decide +kernel

end Roster

end ZeptoPM
