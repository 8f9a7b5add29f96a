import ZeptoPM.Frontdoor

/- The states that the server shows of the agents. The daemon has the state of each, with a log
   of the last hundred entries, and the server a copy, which is made when the agent is spawned
   and made again with every update that the daemon takes. A request to stop marks the copy
   alone. What has been said of an incarnation, by updates and by such requests, is noted, and
   `AgentState.told` is the state that it adds up to. -/
namespace ZeptoPM
open Daemon

/-! ## States and logs -/

/-- A single log entry for an agent. -/
structure LogEntry where
  timestamp : String
  level : String
  message : String
  deriving DecidableEq, Repr

def maxLogEntries : Nat := 100

def pushLog (logs : List LogEntry) (entry : LogEntry) : List LogEntry :=
  (if maxLogEntries ≤ logs.length then logs.drop 1 else logs) ++ [entry]

/-- Runtime state of a managed agent. -/
structure AgentState where
  name : String
  status : AgentStatus
  restartCount : Nat
  startedAt : Option Instant
  lastError : Option String
  messagesHandled : Nat
  tokensUsed : Nat
  logs : List LogEntry
  pid : Option Nat

/-- The part of an agent's state that `InternalAgent` leaves out. -/
structure Sheet where
  startedAt : Option Instant
  messagesHandled : Nat
  logs : List LogEntry

/-- The log that comes with an update, if one does, is pushed. -/
def Sheet.push (sheet : Sheet) (log : Option LogEntry) : Sheet :=
  { sheet with logs := (log.map (pushLog sheet.logs)).getD sheet.logs }

namespace InternalAgent

/-- The whole state of an entry. -/
def state (agent : InternalAgent) (name : String) (sheet : Sheet) : AgentState where
  name := name
  status := agent.status
  restartCount := agent.restartCount
  startedAt := sheet.startedAt
  lastError := agent.lastError
  messagesHandled := sheet.messagesHandled
  tokensUsed := agent.tokensUsed
  logs := sheet.logs
  pid := agent.pid

/-- What an update does to an entry before a restart is scheduled. -/
def report (agent : InternalAgent) (update : AgentStateUpdate) : InternalAgent :=
  { agent with
    tokensUsed := agent.tokensUsed + update.tokensDelta
    status := update.status
    lastError := update.error.or agent.lastError
    pid := update.pid.or agent.pid }

end InternalAgent

/-- The last entries of a log. -/
def lastLogs (logs : List LogEntry) : List LogEntry := logs.drop (logs.length - maxLogEntries)

theorem pushLog_lastLogs (logs : List LogEntry) (entry : LogEntry) :
    pushLog (lastLogs logs) entry = lastLogs (logs ++ [entry]) := by
  unfold pushLog lastLogs
  rw [List.length_append, List.length_singleton, List.length_drop]
  have hmax : maxLogEntries = 100 := rfl
  by_cases hfull : maxLogEntries ≤ logs.length
  · rw [if_pos (by omega), List.drop_drop, List.drop_append_of_le_length (by omega)]
    congr 2
    omega
  · have hshort : logs.length + 1 ≤ maxLogEntries := Nat.not_le.mp hfull
    rw [if_neg (by omega), Nat.sub_eq_zero_of_le hshort, Nat.sub_eq_zero_of_le (by omega)]
    rfl

/-! ## What bridges log -/

/-- An update as bridges make them. -/
structure AgentStateUpdate.Ordinary (u : AgentStateUpdate) : Prop where
  status : u.status ≠ .restartPending
  tokensDelta : u.tokensDelta = 0

namespace Bridge

/-- What is logged with each update, with its level. -/
def startLogs : BridgeStart → List (Option (String × String))
  | .noExecutable e => [some ("error", "cannot find executable: " ++ e)]
  | .spawnFailed e => [some ("error", "spawn failed: " ++ e)]
  | .spawned pid => [some ("info", "worker spawned (pid=" ++ toString (pid.getD 0) ++ ")")]

def outputLogs (msg : Json) : List (Option (String × String)) :=
  match msg.strOr "type" "" with
  | "status" => [none]
  | "log" => [some (msg.strOr "level" "info", msg.strOr "message" "")]
  | "artifact_produced" => [some ("info", "artifact_produced: " ++ msg.strOr "job_id" "?")]
  | "job_completed" => [some ("info", "job_completed: " ++ msg.strOr "job_id" "?")]
  | "job_failed" => [some ("info", "job_failed: " ++ msg.strOr "job_id" "?")]
  | _ => []

def exitLogs (failure : Option (Option String)) : List (Option (String × String)) :=
  match failure with
  | some (some status) =>
    [some ("error", "worker exited with " ++ status), some ("info", "worker process stopped")]
  | _ => [some ("info", "worker process stopped")]

def logs (b : Bridge) (i : BridgeInput) : List (Option (String × String)) :=
  match b.phase, i with
  | .looping, .output msg => outputLogs msg
  | .waiting, .childExit failure => exitLogs failure
  | _, _ => []

/-- The bridge sends `n` updates. -/
def Adds (b b' : Bridge) (n : Nat) : Prop :=
  ∃ us, b'.updates = b.updates ++ us ∧ us.length = n ∧ ∀ u ∈ us, u.Ordinary

section
variable {b b' : Bridge}

theorem Adds.none (h : b'.updates = b.updates) : Adds b b' 0 :=
  ⟨[], by rw [h, List.append_nil], rfl, nofun⟩

theorem adds_update (b : Bridge) {status : AgentStatus} (error : Option String)
    (h : status ≠ .restartPending) : Adds b (b.update status error) 1 := by
  refine ⟨_, rfl, rfl, ?_⟩
  intro u hu
  rw [List.mem_singleton.mp hu]
  exact ⟨h, rfl⟩

theorem Adds.trans {b'' : Bridge} {n n' : Nat} (h : Adds b b' n) (h' : Adds b' b'' n') :
    Adds b b'' (n + n') := by
  obtain ⟨us, hus, hlen, hordinary⟩ := h
  obtain ⟨us', hus', hlen', hordinary'⟩ := h'
  refine ⟨us ++ us', by rw [hus', hus, List.append_assoc],
    by rw [List.length_append, hlen, hlen'], ?_⟩
  intro u hu
  exact (List.mem_append.mp hu).elim (hordinary u) (hordinary' u)

theorem updates_forward (b : Bridge) (event : Json) : (b.forward event).updates = b.updates := by
  unfold forward
  split <;> rfl

theorem updates_chatResponse (b : Bridge) (msg : Json) :
    (b.chatResponse msg).updates = b.updates := by
  unfold chatResponse
  dsimp only
  split
  · rfl
  · split
    · unfold channelResponse
      split
      · rfl
      · exact updates_forward ..
    · rfl

theorem adds_handleOutput (b : Bridge) (msg : Json) :
    Adds b (b.handleOutput msg) (outputLogs msg).length := by
  have hfiller : Adds b (b.update .idle none) 1 := adds_update b none (by simp)
  have hforwarded : Adds b ((b.update .idle none).forward msg) 1 :=
    hfiller.trans (.none (updates_forward _ msg))
  unfold handleOutput outputLogs
  generalize msg.strOr "type" "" = type
  split
  · exact .none (updates_chatResponse b msg)
  · show Adds b (b.statusMessage msg) 1
    unfold statusMessage
    dsimp only
    split
    · exact (adds_update b _ (parseStatus_ne _)).trans (.none rfl)
    · exact adds_update b _ (parseStatus_ne _)
  · exact hfiller
  · exact .none (updates_forward b msg)
  · exact .none (updates_forward b msg)
  · exact hforwarded
  · exact hforwarded
  · exact hforwarded
  · split
    all_goals first | exact .none rfl | contradiction

theorem updates_refuse (b : Bridge) (i : BridgeInput) : (b.refuse i).updates = b.updates := by
  unfold refuse
  split <;> rfl

/-- Each update goes with what is logged. -/
theorem adds_step (b : Bridge) (i : BridgeInput) : Adds b (b.step i) (b.logs i).length := by
  unfold step logs
  cases b.phase with
  | looping =>
    cases i with
    | output msg => exact adds_handleOutput b msg
    | userMessage message reply written =>
      refine .none ?_
      cases reply with
      | false => simp [loopStep, userMessage]
      | true => simp [loopStep, userMessage]
    | channelMessage channelId message written =>
      exact .none (by simp [loopStep, channelMessage])
    | jobExecute jobId instruction workspace inputArtifacts written =>
      exact .none (updates_write ..)
    | stop written =>
      refine .none ?_
      show (b.writeStop written).updates = b.updates
      unfold writeStop
      split <;> rfl
    | closed => exact .none rfl
    | endOfOutput => exact .none rfl
    | childExit failure => exact .none rfl
  | waiting =>
    cases i with
    | childExit failure =>
      have hstopped : ∀ b : Bridge, Adds b ({ b.update .stopped none with phase := .ended }) 1 :=
        fun b => (adds_update b none (by simp)).trans (.none rfl)
      show Adds b (b.exit failure) (exitLogs failure).length
      cases failure with
      | none => exact hstopped b
      | some failed =>
        cases failed with
        | none => exact hstopped b
        | some status =>
          exact (adds_update b (some ("worker exited with " ++ status)) (by simp)).trans
            (hstopped _)
    | _ => exact .none (updates_refuse b _)
  | ended => exact .none (updates_refuse b i)

theorem ordinary_workerBridge (agentName : String) (orchTx : Bool) (orchJobId : Option JobId)
    (start : BridgeStart) :
    (workerBridge agentName orchTx orchJobId start).updates.length = (startLogs start).length ∧
      ∀ u ∈ (workerBridge agentName orchTx orchJobId start).updates, u.Ordinary := by
  cases start with
  | _ =>
    refine ⟨rfl, fun u hu => ?_⟩
    rw [List.mem_singleton.mp hu]
    exact ⟨by simp, rfl⟩

end
end Bridge

/-! ## The machine -/

/-- What is said of an incarnation. -/
inductive Word where
  /-- The daemon takes an update under the agent's name. -/
  | report (update : AgentStateUpdate) (log : Option LogEntry)
  /-- A request over HTTP asks it to stop. -/
  | stop

/-- The fleet with the states in full. What is beside the entries is kept by their handles. -/
structure Roster where
  fleet : Fleet
  sheets : Nat → Sheet
  /-- The states that the server has copies of. -/
  copies : Nat → Option AgentState
  /-- What is logged with each update of the queue. -/
  logs : List (Option LogEntry)
  /-- What has been said, in its order. -/
  words : Nat → List Word

structure RosterInput where
  input : FleetInput
  /-- The time that is stamped on each entry logged in the step. -/
  utcNow : Nat → String

/-- The entries with their times. -/
def makeLogs (utcNow : Nat → String) (logs : List (Option (String × String))) :
    List (Option LogEntry) :=
  logs.zipIdx.map (fun x => x.1.map (fun log => ⟨utcNow x.2, log.1, log.2⟩))

namespace Roster

/-- What is beside the entry of an incarnation that has just been spawned. -/
def newSheet (s : Site) : Sheet := ⟨some s.world.instant, 0, []⟩

/-- The copy that `sync_agent_to_shared` makes of a new entry. -/
def newCopy (s : Site) (f : Fleet) (handle : Nat) : Option AgentState :=
  match f.launched[handle]? with
  | some (.agent name) =>
    (f.daemon.managed.get name).map (fun agent => agent.state name (newSheet s))
  | _ => none

/-- The daemon goes on to `f`, and each incarnation that it has spawned begins with nothing said. -/
def spawning (r : Roster) (s : Site) (f : Fleet) : Roster :=
  { r with
    fleet := f
    sheets := fun n => if n < r.fleet.launched.length then r.sheets n else newSheet s
    copies := fun n => if n < r.fleet.launched.length then r.copies n else newCopy s f n }

/-- The server's copy of the agent, if it has one, becomes the state. -/
def copyState (r : Roster) (name : String) (state : AgentState) : Nat → Option AgentState :=
  match r.fleet.shared.agents.get name with
  | none => r.copies
  | some m => Function.update r.copies m.handle (some state)

/-- The daemon takes the next update, and the server's copy is made anew. -/
def deliver (r : Roster) (s : Site) : Roster :=
  match r.fleet.queue with
  | [] => r
  | report :: _ =>
    let name := report.update.name
    let log := r.logs.head?.join
    match r.fleet.daemon.managed.get name with
    | none => { r with fleet := r.fleet.deliver s, logs := r.logs.tail }
    | some agent =>
      let handle := r.fleet.handle name
      let sheet := (r.sheets handle).push log
      { fleet := r.fleet.deliver s
        sheets := Function.update r.sheets handle sheet
        copies := r.copyState name ((agent.report report.update).state name sheet)
        logs := r.logs.tail
        words := Function.update r.words handle (r.words handle ++ [.report report.update log]) }

/-- `post_stop` marks the server's copy. -/
def postStop (r : Roster) (name : String) : Roster :=
  let fleet := r.fleet.step (.postStop name)
  match r.fleet.shared.agents.get name with
  | none => { r with fleet := fleet }
  | some m =>
    { r with
      fleet := fleet
      copies := Function.update r.copies m.handle
        ((r.copies m.handle).map (fun state => { state with status := .stopped }))
      words := Function.update r.words m.handle (r.words m.handle ++ [.stop]) }

def begins (r : Roster) (handle : Nat) (start : BridgeStart) (utcNow : Nat → String) : Roster :=
  match r.fleet.launched[handle]?.bind (·.bridge start), r.fleet.bridges.get handle with
  | some _, none =>
    { r with
      fleet := r.fleet.begins handle start
      logs := r.logs ++ makeLogs utcNow (Bridge.startLogs start) }
  | _, _ => r

def bridgeStep (r : Roster) (handle : Nat) (input : BridgeInput) (utcNow : Nat → String) :
    Roster :=
  match r.fleet.bridges.get handle with
  | none => r
  | some b =>
    { r with
      fleet := r.fleet.bridgeStep handle input
      logs := r.logs ++ makeLogs utcNow (b.logs input) }

def step (r : Roster) (x : RosterInput) : Roster :=
  match x.input with
  | .begins handle start => r.begins handle start x.utcNow
  | .bridge handle input => r.bridgeStep handle input x.utcNow
  | .postStop name => r.postStop name
  | .deliver s => r.deliver s
  | .start s name => r.spawning s (r.fleet.startAgent s name)
  | .restart s name => r.spawning s (r.fleet.restartAgent s name)
  | .reload s => r.spawning s (r.fleet.reloadConfig s)
  | .restartAgents s => r.spawning s (r.fleet.restartAgents s)
  | .spawnJob s job => r.spawning s (r.fleet.spawnJobWorker s job)
  | .dropJob jobId => { r with fleet := r.fleet.step (.dropJob jobId) }
  | .elsewhere d => { r with fleet := r.fleet.elsewhere d }

/-- The start of the process. -/
def boot (s : Site) (d : Daemon) (config : Config) : Roster where
  fleet := Fleet.boot s d config
  sheets := fun _ => newSheet s
  copies := newCopy s (Fleet.boot s d config)
  logs := []
  words := fun _ => []

/-- The roster's fleet is the fleet. -/
theorem fleet_step (r : Roster) (x : RosterInput) : (r.step x).fleet = r.fleet.step x.input := by
  unfold step
  cases x.input with
  | begins handle start =>
    show (r.begins handle start x.utcNow).fleet = r.fleet.begins handle start
    unfold begins
    split
    · rfl
    · rename_i hno
      unfold Fleet.begins
      split
      · rename_i b hb hnone
        exact absurd hnone (hno b hb)
      · rfl
  | bridge handle input =>
    show (r.bridgeStep handle input x.utcNow).fleet = r.fleet.bridgeStep handle input
    unfold bridgeStep
    split
    · rename_i hnone
      unfold Fleet.bridgeStep
      rw [hnone]
    · rfl
  | postStop name =>
    show (r.postStop name).fleet = _
    unfold postStop
    dsimp only
    split <;> rfl
  | deliver s =>
    show (r.deliver s).fleet = r.fleet.deliver s
    unfold deliver
    split
    · rename_i hq
      exact (Fleet.deliver_nil s hq).symm
    · dsimp only
      split <;> rfl
  | _ => rfl

/-! ## What the server answers -/

/-- What the server has of the agent, or its answer that it knows none. -/
def agentCopy (r : Roster) (name : String) : Except String AgentState :=
  match (r.fleet.shared.agents.get name).bind (fun m => r.copies m.handle) with
  | none => .error ("agent '" ++ name ++ "' not found")
  | some state => .ok state

end Roster

structure AgentInfo where
  name : String
  status : String
  restartCount : Nat
  tokensUsed : Nat
  messagesHandled : Nat
  uptimeSecs : Option Nat
  lastError : Option String
  pid : Option Nat

def agentToInfo (now : Instant) (name : String) (state : AgentState) : AgentInfo where
  name := name
  status := state.status.text
  restartCount := state.restartCount
  tokensUsed := state.tokensUsed
  messagesHandled := state.messagesHandled
  uptimeSecs := state.startedAt.map (fun t => (now - t) / 1000)
  lastError := state.lastError
  pid := state.pid

namespace Roster

def getAgentStatus (r : Roster) (now : Instant) (name : String) : Except String AgentInfo :=
  (r.agentCopy name).map (agentToInfo now name)

def getStatus (r : Roster) (e : Enumeration String) (now : Instant) : List AgentInfo :=
  (r.fleet.shared.agents.keysIn e).filterMap (fun name => (r.getAgentStatus now name).toOption)

/-- The conflict that `post_start` answers with before it asks the daemon. -/
def startConflict (r : Roster) (name : String) : Option String :=
  match r.agentCopy name with
  | .error _ => none
  | .ok state =>
    if state.status ≠ .stopped ∧ state.status ≠ .error then
      some ("agent '" ++ name ++ "' is already " ++ state.status.text)
    else none

end Roster

/-! ## What the words add up to -/

namespace Word

/-- The status that the server is left with. -/
def status : Word → AgentStatus
  | .report update _ => update.status
  | .stop => .stopped

def update : Word → Option AgentStateUpdate
  | .report update _ => some update
  | .stop => none

def log : Word → Option LogEntry
  | .report _ log => log
  | .stop => none

end Word

/-- The status that was last told, by a report or by a request. -/
def lastStatus (words : List Word) : AgentStatus := (words.getLast?.map (·.status)).getD .starting

def reports (words : List Word) : List AgentStateUpdate := words.filterMap (·.update)

/-- The status that was last reported. -/
def lastReported (words : List Word) : AgentStatus :=
  ((reports words).getLast?.map (·.status)).getD .starting

/-- The state of an agent of whose incarnation these words have been said. -/
def AgentState.told (name : String) (restartCount : Nat) (startedAt : Option Instant)
    (words : List Word) : AgentState where
  name := name
  status := lastStatus words
  restartCount := restartCount
  startedAt := startedAt
  lastError := ((reports words).filterMap (·.error)).getLast?
  messagesHandled := 0
  tokensUsed := 0
  logs := lastLogs (words.filterMap (·.log))
  pid := ((reports words).filterMap (·.pid)).getLast?

section
variable (words : List Word) (u : AgentStateUpdate) (log : Option LogEntry)

theorem lastStatus_concat (word : Word) : lastStatus (words ++ [word]) = word.status := by
  unfold lastStatus
  rw [List.getLast?_concat]
  rfl

theorem reports_report : reports (words ++ [.report u log]) = reports words ++ [u] := by
  unfold reports
  rw [List.filterMap_append]
  rfl

theorem reports_stop : reports (words ++ [.stop]) = reports words := by
  unfold reports
  rw [List.filterMap_append]
  exact List.append_nil _

theorem lastReported_report : lastReported (words ++ [.report u log]) = u.status := by
  unfold lastReported
  rw [reports_report, List.getLast?_concat]
  rfl

theorem getLast?_or {α : Type} (l : List α) (o : Option α) :
    (l ++ o.toList).getLast? = o.or l.getLast? := by
  cases o with
  | none => rw [Option.toList_none, List.append_nil, Option.none_or]
  | some a => exact List.getLast?_concat ..

theorem last_report {α : Type} (f : AgentStateUpdate → Option α) :
    ((reports (words ++ [.report u log])).filterMap f).getLast? =
      (f u).or ((reports words).filterMap f).getLast? := by
  rw [reports_report, List.filterMap_append, ← getLast?_or]
  rfl

/-- The status is the last one reported, unless a request to stop is the last word. -/
theorem lastStatus_cases : lastStatus words = lastReported words ∨
    words.getLast? = some .stop ∧ lastStatus words = .stopped := by
  induction words using List.reverseRecOn with
  | nil => exact Or.inl rfl
  | append_singleton words word _ =>
    rw [lastStatus_concat, List.getLast?_concat]
    cases word with
    | report u log => exact Or.inl (lastReported_report words u log).symm
    | stop => exact Or.inr ⟨rfl, rfl⟩

end

end ZeptoPM
