import ZeptoPM.Sandbox

/- The task behind a sandboxed job, from the creation of the capsule to its end. Four
   calls may fail before the worker runs; then the task waits for commands and lines
   of the worker in whatever order they come, leaves its loop, cleans up, and makes up
   for the outcome that the worker did not report. Two flags and a deferred failure
   carry what has happened in the loop to the end of the task. `Account` says what they
   stand for; from it one outcome follows (`capsuleTask_outcome`). The driver of the
   other modules is this task with its clean-up and the end of output taken together
   (`Refines`). -/
namespace ZeptoPM

/-- What a task may be told; a sandboxed worker takes no messages, so what they carry is
left out. -/
inductive AgentCommand where
  | userMessage | channelMessage | jobExecute | stop
  deriving DecidableEq

/-- The errors of the calls before the loop, `none` where they succeed. A call is made only
if those before it succeed. -/
structure CapsuleCalls where
  create : Option String
  createDirAll : Option String
  writeJobSpec : Option String
  spawn : Option String

inductive CapsuleTaskInput where
  /-- `cmd_rx.recv()`: a command, or `none` once the channel is closed. -/
  | command (cmd : Option AgentCommand)
  /-- `reader.next_line()`: an error, the end of the output, or a line, parsed if it is JSON. -/
  | nextLine (line : Except String (Option (Option Json)))
  /-- `capsule.destroy()`. -/
  | destroyed (report : Except String CapsuleReport)

inductive CapsulePhase where
  | looping | cleanup | returned
  deriving DecidableEq

structure CapsuleTask where
  jobId : JobId
  guestWorkspace : PathBuf
  hostWorkspace : PathBuf
  phase : CapsulePhase
  sawTerminalEvent : Bool
  suppressTerminalEvent : Bool
  deferredFailure : Option Json
  /-- The events sent to the orchestrator. -/
  sent : List Json

namespace CapsuleTask

def send (t : CapsuleTask) (event : Json) : CapsuleTask := { t with sent := t.sent ++ [event] }

/-- Sends the outcome that the worker has reported and leaves the loop. -/
def terminate (t : CapsuleTask) (event : Json) : CapsuleTask :=
  { t.send event with
    sawTerminalEvent := true
    phase := .cleanup }

def spawnCapsuleJob (config : Config) (job : Job) (calls : CapsuleCalls) : CapsuleTask :=
  let t : CapsuleTask :=
    { jobId := job.jobId
      guestWorkspace := guestWorkspacePath config job
      hostWorkspace := job.workspaceDir
      phase := .looping
      sawTerminalEvent := false
      suppressTerminalEvent := false
      deferredFailure := none
      sent := [] }
  let failed := fun error =>
    { t.send (jobFailedEvent job.jobId error true) with phase := .returned }
  match calls.create with
  | some e => failed ("capsule creation failed: " ++ e)
  | none =>
    match calls.createDirAll with
    | some e => failed ("failed to create workspace: " ++ e)
    | none =>
      match calls.writeJobSpec with
      | some e => failed ("failed to write job spec: " ++ e)
      | none =>
        match calls.spawn with
        | some e => failed ("capsule spawn failed: " ++ e)
        | none => t

/-- One line of the worker that is JSON. -/
def handleLine (t : CapsuleTask) (event : Json) : CapsuleTask :=
  match event.strOr "type" "" with
  | "heartbeat" => t.send event
  | "progress" => t.send event
  | "artifact_produced" =>
    t.send (translateGuestEventPaths event t.guestWorkspace t.hostWorkspace)
  | "job_completed" =>
    t.terminate (.obj [("type", .str "job_completed"), ("job_id", .str t.jobId),
      ("output_artifact_ids", (event.get "output_artifact_ids").getD (.arr []))])
  | "job_failed" =>
    t.terminate (jobFailedEvent t.jobId (event.strOr "error" "unknown error")
      (event.boolOr "retryable" false))
  | _ => t

/-- One turn of the loop. -/
def turn (t : CapsuleTask) (i : CapsuleTaskInput) : CapsuleTask :=
  match i with
  | .command (some .stop) => { t with suppressTerminalEvent := true, phase := .cleanup }
  | .command none => { t with suppressTerminalEvent := true, phase := .cleanup }
  | .command (some _) => t
  | .nextLine (.ok (some (some event))) => t.handleLine event
  | .nextLine (.ok (some none)) => t
  | .nextLine (.ok none) => { t with phase := .cleanup }
  | .nextLine (.error e) =>
    { t with
      deferredFailure := some (jobFailedEvent t.jobId ("pipe read error: " ++ e) true)
      phase := .cleanup }
  | .destroyed _ => t

/-- What follows the clean-up. -/
def conclude (t : CapsuleTask) (report : Except String CapsuleReport) : CapsuleTask :=
  let t' :=
    if !t.sawTerminalEvent && !t.suppressTerminalEvent then
      t.send (t.deferredFailure.getD
        (capsuleFailureEvent t.jobId report.toOption "worker exited unexpectedly (pipe EOF)"))
    else t
  { t' with phase := .returned }

def step (t : CapsuleTask) (i : CapsuleTaskInput) : CapsuleTask :=
  match t.phase, i with
  | .looping, i => t.turn i
  | .cleanup, .destroyed report => t.conclude report
  | .cleanup, _ => t
  | .returned, _ => t

section
variable {t : CapsuleTask}

theorem step_looping (h : t.phase = .looping) (i : CapsuleTaskInput) : t.step i = t.turn i := by
  unfold step
  rw [h]

theorem step_destroyed (h : t.phase = .cleanup) (report : Except String CapsuleReport) :
    t.step (.destroyed report) = t.conclude report := by
  unfold step
  rw [h]

/-- A task that cleans up waits for the capsule only. -/
theorem step_cleanup (h : t.phase = .cleanup) {i : CapsuleTaskInput}
    (hi : ∀ report, i ≠ .destroyed report) : t.step i = t := by
  unfold step
  rw [h]
  cases i with
  | destroyed report => exact absurd rfl (hi report)
  | _ => rfl

theorem step_returned (h : t.phase = .returned) (i : CapsuleTaskInput) : t.step i = t := by
  unfold step
  rw [h]

end

/-! ## One outcome -/

/-- What a task has sent is reports and, at their end, perhaps an outcome of its own job. The
flags say whether there is one, and why not. -/
structure Account (t : CapsuleTask) (reports : List Json) (outcome : Option Json) : Prop where
  sent : t.sent = reports ++ outcome.toList
  plain : ∀ event ∈ reports, ¬ Terminal event
  own : ∀ event ∈ outcome, Terminal event ∧ event.strOr "job_id" "" = t.jobId
  deferred : ∀ event ∈ t.deferredFailure, Terminal event ∧ event.strOr "job_id" "" = t.jobId
  looping : t.phase = .looping → outcome = none ∧ t.sawTerminalEvent = false ∧
    t.suppressTerminalEvent = false
  cleanup : t.phase = .cleanup → (outcome.isSome ↔ t.sawTerminalEvent = true)
  returned : t.phase = .returned → (outcome = none ↔ t.suppressTerminalEvent = true)
  /-- A task that was stopped has no outcome. -/
  stopped : t.suppressTerminalEvent = true → outcome = none

section
variable {t : CapsuleTask} {reports : List Json} {outcome : Option Json}

theorem terminal_jobFailedEvent (jobId error : String) (retryable : Bool) :
    Terminal (jobFailedEvent jobId error retryable) ∧
      (jobFailedEvent jobId error retryable).strOr "job_id" "" = jobId :=
  ⟨Or.inr rfl, rfl⟩

/-- A report in the loop is no outcome. -/
theorem Account.report (h : Account t reports outcome) (hphase : t.phase = .looping) {event : Json}
    (hevent : ¬ Terminal event) : Account (t.send event) (reports ++ [event]) none := by
  obtain ⟨hnone, hsaw, hstop⟩ := h.looping hphase
  subst hnone
  refine ⟨?_, ?_, by simp, h.deferred, fun _ => ⟨rfl, hsaw, hstop⟩, ?_, ?_, fun _ => rfl⟩
  · show t.sent ++ [event] = _
    rw [h.sent]
    simp
  · intro e he
    rcases List.mem_append.mp he with he | he
    · exact h.plain e he
    · rw [List.mem_singleton.mp he]
      exact hevent
  · intro hclean
    rw [show (t.send event).phase = t.phase from rfl, hphase] at hclean
    cases hclean
  · intro hret
    rw [show (t.send event).phase = t.phase from rfl, hphase] at hret
    cases hret

/-- The outcome that the worker reports ends the loop. -/
theorem Account.terminate (h : Account t reports outcome) (hphase : t.phase = .looping)
    {event : Json} (hevent : Terminal event) (hid : event.strOr "job_id" "" = t.jobId) :
    Account (t.terminate event) reports (some event) := by
  obtain ⟨hnone, _, hstop⟩ := h.looping hphase
  subst hnone
  refine ⟨?_, h.plain, ?_, h.deferred, nofun, fun _ => ?_,
    nofun, ?_⟩
  · show t.sent ++ [event] = _
    rw [h.sent]
    simp
  · intro e he
    cases he
    exact ⟨hevent, hid⟩
  · exact ⟨fun _ => rfl, fun _ => rfl⟩
  · intro hsup
    rw [show (t.terminate event).suppressTerminalEvent = t.suppressTerminalEvent from rfl,
      hstop] at hsup
    cases hsup

/-- Leaving the loop without an outcome. -/
theorem Account.leave (h : Account t reports outcome) (hphase : t.phase = .looping) (stop : Bool)
    (deferred : Option Json)
    (hdeferred : ∀ event ∈ deferred, Terminal event ∧ event.strOr "job_id" "" = t.jobId) :
    Account { t with
      suppressTerminalEvent := stop
      deferredFailure := deferred
      phase := .cleanup } reports none := by
  obtain ⟨hnone, hsaw, _⟩ := h.looping hphase
  subst hnone
  refine ⟨h.sent, h.plain, by simp, hdeferred, nofun, fun _ => ?_,
    nofun, fun _ => rfl⟩
  show (none : Option Json).isSome = true ↔ t.sawTerminalEvent = true
  rw [hsaw]
  simp

theorem account_handleLine (h : Account t reports outcome) (hphase : t.phase = .looping)
    (event : Json) : ∃ reports outcome, Account (t.handleLine event) reports outcome := by
  have hother : ∀ s e, Json.strOr e "type" "" = s → s ≠ "job_completed" → s ≠ "job_failed" →
      ¬ Terminal e := by
    intro s e hs hcompleted hfailed hterm
    unfold Terminal at hterm
    rw [hs] at hterm
    exact hterm.elim hcompleted hfailed
  unfold handleLine
  split
  · rename_i htype
    exact ⟨_, _, h.report hphase (hother _ _ htype (by decide) (by decide))⟩
  · rename_i htype
    exact ⟨_, _, h.report hphase (hother _ _ htype (by decide) (by decide))⟩
  · rename_i htype
    refine ⟨_, _, h.report hphase (hother "artifact_produced" _ ?_ (by decide) (by decide))⟩
    rw [translate_strOr (by decide), htype]
  · exact ⟨_, _, h.terminate hphase (Or.inl rfl) rfl⟩
  · obtain ⟨hterm, hid⟩ := terminal_jobFailedEvent t.jobId (event.strOr "error" "unknown error")
      (event.boolOr "retryable" false)
    exact ⟨_, _, h.terminate hphase hterm hid⟩
  · exact ⟨_, _, h⟩

theorem account_turn (h : Account t reports outcome) (hphase : t.phase = .looping)
    (i : CapsuleTaskInput) : ∃ reports outcome, Account (t.turn i) reports outcome := by
  have hstop := (h.looping hphase).2.2
  cases i with
  | command cmd =>
    cases cmd with
    | none => exact ⟨_, _, h.leave hphase true t.deferredFailure h.deferred⟩
    | some cmd =>
      cases cmd with
      | stop => exact ⟨_, _, h.leave hphase true t.deferredFailure h.deferred⟩
      | _ => exact ⟨_, _, h⟩
  | nextLine line =>
    cases line with
    | error e =>
      have hleave := h.leave hphase t.suppressTerminalEvent
        (some (jobFailedEvent t.jobId ("pipe read error: " ++ e) true)) (by
          intro event hevent
          cases hevent
          exact terminal_jobFailedEvent ..)
      exact ⟨_, _, hleave⟩
    | ok line =>
      cases line with
      | none => exact ⟨_, _, h.leave hphase t.suppressTerminalEvent t.deferredFailure h.deferred⟩
      | some line =>
        cases line with
        | none => exact ⟨_, _, h⟩
        | some event => exact account_handleLine h hphase event
  | destroyed report => exact ⟨_, _, h⟩

theorem account_conclude (h : Account t reports outcome) (hphase : t.phase = .cleanup)
    (report : Except String CapsuleReport) :
    ∃ reports outcome, Account (t.conclude report) reports outcome := by
  unfold conclude
  dsimp only
  split
  · -- neither reported nor stopped: the failure is made up for
    rename_i hflags
    rw [Bool.and_eq_true, Bool.not_eq_true', Bool.not_eq_true'] at hflags
    obtain ⟨hsaw, hstop⟩ := hflags
    have hnone : outcome = none := by
      have hiff := h.cleanup hphase
      rw [hsaw] at hiff
      simpa using hiff
    subst hnone
    obtain ⟨failure, hfailure, hterm, hid⟩ : ∃ failure, t.deferredFailure.getD
        (capsuleFailureEvent t.jobId report.toOption "worker exited unexpectedly (pipe EOF)") =
          failure ∧ Terminal failure ∧ failure.strOr "job_id" "" = t.jobId := by
      refine ⟨_, rfl, ?_⟩
      cases hdeferred : t.deferredFailure with
      | none => exact terminal_jobFailedEvent ..
      | some event => exact h.deferred event hdeferred
    rw [hfailure]
    refine ⟨reports, some failure, ?_, h.plain, ?_, h.deferred, nofun,
      nofun, fun _ => ?_, ?_⟩
    · show t.sent ++ [failure] = _
      rw [h.sent]
      simp
    · intro e he
      cases he
      exact ⟨hterm, hid⟩
    · show some failure = none ↔ t.suppressTerminalEvent = true
      rw [hstop]
      simp
    · intro hsup
      rw [show ({ t.send failure with phase := .returned } : CapsuleTask).suppressTerminalEvent =
        t.suppressTerminalEvent from rfl, hstop] at hsup
      cases hsup
  · rename_i hflags
    refine ⟨reports, outcome, h.sent, h.plain, h.own, h.deferred,
      nofun, nofun, fun _ => ?_, h.stopped⟩
    refine ⟨?_, h.stopped⟩
    intro hnone
    by_contra hstop
    rw [Bool.not_eq_true] at hstop
    have hsaw : t.sawTerminalEvent = false := by
      rw [← Bool.not_eq_true, ← h.cleanup hphase, hnone]
      simp
    have hstop' : t.suppressTerminalEvent = false := hstop
    rw [hsaw, hstop'] at hflags
    exact hflags rfl

theorem account_step (h : Account t reports outcome) (i : CapsuleTaskInput) :
    ∃ reports outcome, Account (t.step i) reports outcome := by
  cases hphase : t.phase with
  | looping =>
    rw [step_looping hphase]
    exact account_turn h hphase i
  | cleanup =>
    by_cases hi : ∃ report, i = .destroyed report
    · obtain ⟨report, rfl⟩ := hi
      rw [step_destroyed hphase]
      exact account_conclude h hphase report
    · rw [step_cleanup hphase (not_exists.mp hi)]
      exact ⟨_, _, h⟩
  | returned =>
    rw [step_returned hphase]
    exact ⟨_, _, h⟩

theorem account_run (h : Account t reports outcome) (is : List CapsuleTaskInput) :
    ∃ reports outcome, Account (run step t is) reports outcome := by
  induction is generalizing t reports outcome with
  | nil => exact ⟨_, _, h⟩
  | cons i is ih =>
    obtain ⟨_, _, h'⟩ := account_step h i
    exact ih h'

theorem account_spawnCapsuleJob (config : Config) (job : Job) (calls : CapsuleCalls) :
    ∃ reports outcome, Account (spawnCapsuleJob config job calls) reports outcome := by
  have hfailed : ∀ error : String, Account
      { jobId := job.jobId
        guestWorkspace := guestWorkspacePath config job
        hostWorkspace := job.workspaceDir
        phase := .returned
        sawTerminalEvent := false
        suppressTerminalEvent := false
        deferredFailure := none
        sent := [] ++ [jobFailedEvent job.jobId error true] } []
      (some (jobFailedEvent job.jobId error true)) := by
    intro error
    refine ⟨rfl, by simp, ?_, by simp, nofun, nofun, fun _ => by simp, by simp⟩
    intro event hevent
    cases hevent
    exact terminal_jobFailedEvent ..
  unfold spawnCapsuleJob
  dsimp only
  cases calls.create with
  | some e => exact ⟨_, _, hfailed _⟩
  | none =>
    cases calls.createDirAll with
    | some e => exact ⟨_, _, hfailed _⟩
    | none =>
      cases calls.writeJobSpec with
      | some e => exact ⟨_, _, hfailed _⟩
      | none =>
        cases calls.spawn with
        | some e => exact ⟨_, _, hfailed _⟩
        | none =>
          exact ⟨[], none, rfl, by simp, by simp, by simp, fun _ => ⟨rfl, rfl, rfl⟩, nofun, nofun,
            fun _ => rfl⟩

/-! ## Stopping and ending -/

/-- `Stop`, or the command channel is closed. -/
def Stops : CapsuleTaskInput → Prop
  | .command (some cmd) => cmd = .stop
  | .command none => True
  | _ => False

/-- A line with an outcome, the end of the output, or an error of the pipe. -/
def EndsLoop : CapsuleTaskInput → Prop
  | .nextLine (.ok (some (some event))) => Terminal event
  | .nextLine (.ok (some none)) => False
  | .nextLine (.ok none) => True
  | .nextLine (.error _) => True
  | _ => False

/-- A call before the loop fails. -/
def Fails (calls : CapsuleCalls) : Prop :=
  calls.create.isSome ∨ calls.createDirAll.isSome ∨ calls.writeJobSpec.isSome ∨ calls.spawn.isSome

/-- Something ends the loop, and the capsule is destroyed later. -/
def Finishes (is : List CapsuleTaskInput) : Prop :=
  ∃ before i between report after,
    is = before ++ i :: (between ++ .destroyed report :: after) ∧ EndsLoop i

theorem handleLine_keeps (t : CapsuleTask) (event : Json) :
    (t.handleLine event).jobId = t.jobId ∧
      (t.handleLine event).suppressTerminalEvent = t.suppressTerminalEvent ∧
      (Terminal event → (t.handleLine event).phase = .cleanup) := by
  unfold handleLine Terminal
  split
  · rename_i htype
    exact ⟨rfl, rfl, fun hterm => absurd hterm (by rw [htype]; decide)⟩
  · rename_i htype
    exact ⟨rfl, rfl, fun hterm => absurd hterm (by rw [htype]; decide)⟩
  · rename_i htype
    exact ⟨rfl, rfl, fun hterm => absurd hterm (by rw [htype]; decide)⟩
  · exact ⟨rfl, rfl, fun _ => rfl⟩
  · exact ⟨rfl, rfl, fun _ => rfl⟩
  · rename_i hcompleted hfailed
    exact ⟨rfl, rfl, fun hterm => (hterm.elim hcompleted hfailed).elim⟩

theorem conclude_keeps (t : CapsuleTask) (report : Except String CapsuleReport) :
    (t.conclude report).jobId = t.jobId ∧
      (t.conclude report).suppressTerminalEvent = t.suppressTerminalEvent ∧
      (t.conclude report).phase = .returned := by
  unfold conclude
  dsimp only
  split <;> exact ⟨rfl, rfl, rfl⟩

theorem jobId_step (t : CapsuleTask) (i : CapsuleTaskInput) : (t.step i).jobId = t.jobId := by
  unfold step
  split
  · unfold turn
    split
    · rfl
    · rfl
    · rfl
    · exact (handleLine_keeps t _).1
    all_goals rfl
  · exact (conclude_keeps t _).1
  · rfl
  · rfl

theorem jobId_run (t : CapsuleTask) (is : List CapsuleTaskInput) :
    (run step t is).jobId = t.jobId := by
  induction is generalizing t with
  | nil => rfl
  | cons i is ih => exact (ih _).trans (jobId_step t i)

/-- A task that is not told to stop does not suppress its outcome. -/
theorem suppress_step (t : CapsuleTask) {i : CapsuleTaskInput} (hi : ¬ Stops i) :
    (t.step i).suppressTerminalEvent = t.suppressTerminalEvent := by
  unfold step
  split
  · unfold turn
    split
    · exact absurd rfl hi
    · exact absurd True.intro hi
    · rfl
    · exact (handleLine_keeps t _).2.1
    all_goals rfl
  · exact (conclude_keeps t _).2.1
  · rfl
  · rfl

theorem suppress_run {t : CapsuleTask} {is : List CapsuleTaskInput} (his : ∀ i ∈ is, ¬ Stops i) :
    (run step t is).suppressTerminalEvent = t.suppressTerminalEvent := by
  induction is generalizing t with
  | nil => rfl
  | cons i is ih =>
    exact (ih fun j hj => his j (List.mem_cons_of_mem _ hj)).trans
      (suppress_step t (his i List.mem_cons_self))

theorem returned_run {t : CapsuleTask} (h : t.phase = .returned) (is : List CapsuleTaskInput) :
    run step t is = t := by
  induction is with
  | nil => rfl
  | cons i is ih => rw [run_cons, step_returned h, ih]

theorem left_step {t : CapsuleTask} (h : t.phase ≠ .looping) (i : CapsuleTaskInput) :
    (t.step i).phase ≠ .looping := by
  unfold step
  split
  · rename_i hphase
    exact absurd hphase h
  · rw [(conclude_keeps t _).2.2]
    decide
  · exact h
  · exact h

theorem left_run {t : CapsuleTask} (h : t.phase ≠ .looping) (is : List CapsuleTaskInput) :
    (run step t is).phase ≠ .looping := by
  induction is generalizing t with
  | nil => exact h
  | cons i is ih => exact ih (left_step h i)

theorem left_of_endsLoop (t : CapsuleTask) {i : CapsuleTaskInput} (hi : EndsLoop i) :
    (t.step i).phase ≠ .looping := by
  cases hphase : t.phase with
  | cleanup => exact left_step (by rw [hphase]; decide) i
  | returned => exact left_step (by rw [hphase]; decide) i
  | looping =>
    rw [step_looping hphase]
    cases i with
    | command cmd => exact hi.elim
    | destroyed report => exact hi.elim
    | nextLine line =>
      cases line with
      | error e => exact fun h => by cases h
      | ok line =>
        cases line with
        | none => exact fun h => by cases h
        | some line =>
          cases line with
          | none => exact hi.elim
          | some event =>
            rw [show t.turn (.nextLine (.ok (some (some event)))) = t.handleLine event from rfl,
              (handleLine_keeps t event).2.2 hi]
            decide

theorem returned_of_destroyed {t : CapsuleTask} (h : t.phase ≠ .looping)
    (report : Except String CapsuleReport) : (t.step (.destroyed report)).phase = .returned := by
  cases hphase : t.phase with
  | looping => exact absurd hphase h
  | cleanup =>
    rw [step_destroyed hphase]
    exact (conclude_keeps t report).2.2
  | returned =>
    rw [step_returned hphase]
    exact hphase

/-- Once something has ended the loop and the capsule is destroyed, the task returns. -/
theorem returned_of_finishes (t : CapsuleTask) {is : List CapsuleTaskInput} (h : Finishes is) :
    (run step t is).phase = .returned := by
  obtain ⟨before, i, between, report, after, his, hi⟩ := h
  rw [his, run_append, run_cons, run_append, run_cons]
  have hleft := left_run (left_of_endsLoop (run step t before) hi) between
  have hreturned := returned_of_destroyed hleft report
  rw [returned_run hreturned]
  exact hreturned

theorem returned_of_fails {config : Config} {job : Job} {calls : CapsuleCalls} (h : Fails calls) :
    (spawnCapsuleJob config job calls).phase = .returned := by
  unfold spawnCapsuleJob
  dsimp only
  unfold Fails at h
  cases hcreate : calls.create with
  | some e => rfl
  | none =>
    cases hdir : calls.createDirAll with
    | some e => rfl
    | none =>
      cases hwrite : calls.writeJobSpec with
      | some e => rfl
      | none =>
        cases hspawn : calls.spawn with
        | some e => rfl
        | none =>
          rw [hcreate, hdir, hwrite, hspawn] at h
          simp at h

/-- A task that was stopped sends nothing while it cleans up and after it. -/
theorem silent_run {t : CapsuleTask} (hphase : t.phase = .cleanup)
    (hstop : t.suppressTerminalEvent = true) (is : List CapsuleTaskInput) :
    (run step t is).sent = t.sent ∧ (run step t is).suppressTerminalEvent = true := by
  induction is with
  | nil => exact ⟨rfl, hstop⟩
  | cons i is ih =>
    rw [run_cons]
    by_cases hi : ∃ report, i = .destroyed report
    · obtain ⟨report, rfl⟩ := hi
      have hconclude : t.conclude report = { t with phase := .returned } := by
        unfold conclude
        simp [hstop]
      rw [step_destroyed hphase, hconclude, returned_run rfl]
      exact ⟨rfl, hstop⟩
    · rw [step_cleanup hphase (not_exists.mp hi)]
      exact ih

/-- A task that is stopped in its loop sends nothing any more. -/
theorem silent_of_stops {t : CapsuleTask} (hphase : t.phase = .looping) {i : CapsuleTaskInput}
    (hi : Stops i) (is : List CapsuleTaskInput) :
    (run step t (i :: is)).sent = t.sent ∧
      (run step t (i :: is)).suppressTerminalEvent = true := by
  have hturn : t.turn i = { t with suppressTerminalEvent := true, phase := .cleanup } := by
    cases i with
    | command cmd =>
      cases cmd with
      | none => rfl
      | some cmd =>
        have hcmd : cmd = .stop := hi
        subst hcmd
        rfl
    | _ => exact hi.elim
  rw [run_cons, step_looping hphase, hturn]
  exact silent_run rfl rfl is

end

/-- Whatever the calls return and in whatever order commands, lines and the end of the
capsule come, the task sends reports and after them at most one outcome, which names its
job. It sends one if it is not stopped and returns, as it does once a call has failed or
its loop has ended and the capsule is destroyed; and if it is stopped in its loop it sends
nothing any more. -/
theorem capsuleTask_outcome (config : Config) (job : Job) (calls : CapsuleCalls)
    (is : List CapsuleTaskInput) :
    let t := run step (spawnCapsuleJob config job calls) is
    ∃ (reports : List Json) (outcome : Option Json), t.sent = reports ++ outcome.toList ∧
      (∀ event ∈ reports, ¬ Terminal event) ∧
      (∀ event ∈ outcome, Terminal event ∧ event.strOr "job_id" "" = job.jobId) ∧
      ((∀ i ∈ is, ¬ Stops i) → t.phase = .returned → outcome.isSome) ∧
      (Fails calls ∨ Finishes is → t.phase = .returned) ∧
      ∀ before i after, is = before ++ i :: after → Stops i →
        (run step (spawnCapsuleJob config job calls) before).phase = .looping →
        t.sent = (run step (spawnCapsuleJob config job calls) before).sent ∧ outcome = none := by
  intro t
  obtain ⟨_, _, hstart⟩ := account_spawnCapsuleJob config job calls
  obtain ⟨reports, outcome, h⟩ := account_run hstart is
  have hjob : t.jobId = job.jobId := by
    rw [jobId_run]
    unfold spawnCapsuleJob
    dsimp only
    cases calls.create <;> cases calls.createDirAll <;> cases calls.writeJobSpec <;>
      cases calls.spawn <;> rfl
  have hsup : (spawnCapsuleJob config job calls).suppressTerminalEvent = false := by
    unfold spawnCapsuleJob
    dsimp only
    cases calls.create <;> cases calls.createDirAll <;> cases calls.writeJobSpec <;>
      cases calls.spawn <;> rfl
  refine ⟨reports, outcome, h.sent, h.plain, ?_, ?_, ?_, ?_⟩
  · intro event hevent
    rw [← hjob]
    exact h.own event hevent
  · intro hgoes hret
    rw [Option.isSome_iff_ne_none]
    intro hnone
    have hstopped := (h.returned hret).mp hnone
    rw [suppress_run hgoes, hsup] at hstopped
    cases hstopped
  · intro hends
    rcases hends with hfails | hfinishes
    · have hphase : (spawnCapsuleJob config job calls).phase = .returned := returned_of_fails hfails
      show (run step _ is).phase = .returned
      rw [returned_run hphase]
      exact hphase
    · exact returned_of_finishes _ hfinishes
  · intro before i after his hi hphase
    obtain ⟨hsent, hstop⟩ := silent_of_stops hphase hi after
    rw [← run_append, ← his] at hsent hstop
    exact ⟨hsent, h.stopped hstop⟩

/-! ## The driver of the other modules -/

/-- The first call that fails. -/
def startOf (calls : CapsuleCalls) : CapsuleStart :=
  match calls.create, calls.createDirAll, calls.writeJobSpec, calls.spawn with
  | some e, _, _, _ => .createFailed e
  | none, some e, _, _ => .workspaceFailed e
  | none, none, some e, _ => .jobSpecFailed e
  | none, none, none, some e => .spawnFailed e
  | none, none, none, none => .spawned

/-- What the driver is given for an input of the task. The end of the output reaches it with
the report on the capsule. -/
def driverInputs (t : CapsuleTask) (i : CapsuleTaskInput) : List CapsuleInput :=
  match t.phase, i with
  | .looping, .command (some .stop) => [.stop]
  | .looping, .command none => [.stop]
  | .looping, .command (some _) => [.message]
  | .looping, .nextLine (.ok (some line)) => [.line line]
  | .looping, .nextLine (.error e) => [.readError e]
  | .cleanup, .destroyed report =>
    if t.sawTerminalEvent || t.suppressTerminalEvent || t.deferredFailure.isSome then []
    else [.endOfOutput report.toOption]
  | _, _ => []

/-- What the task still has to send of what the driver has sent. -/
def owed (t : CapsuleTask) : List Json :=
  match t.phase with
  | .cleanup =>
    if t.sawTerminalEvent || t.suppressTerminalEvent then [] else t.deferredFailure.toList
  | _ => []

/-- The driver has left its loop. -/
def decided (t : CapsuleTask) : Bool :=
  match t.phase with
  | .looping => false
  | .cleanup => t.sawTerminalEvent || t.suppressTerminalEvent || t.deferredFailure.isSome
  | .returned => true

/-- The driver stands where the task does. -/
structure Refines (t : CapsuleTask) (c : CapsuleDriver) : Prop where
  jobId : c.jobId = t.jobId
  guestWorkspace : c.guestWorkspace = t.guestWorkspace
  hostWorkspace : c.hostWorkspace = t.hostWorkspace
  running : c.running = !t.decided
  sent : c.sent = t.sent ++ t.owed
  clear : t.phase = .looping → t.sawTerminalEvent = false ∧ t.suppressTerminalEvent = false ∧
    t.deferredFailure = none

section
variable {t : CapsuleTask} {c : CapsuleDriver}

/-- In its loop the task owes nothing, and the driver is running. -/
theorem Refines.looping (h : Refines t c) (hphase : t.phase = .looping) :
    c.running = true ∧ c.sent = t.sent := by
  have hrunning := h.running
  have hsent := h.sent
  rw [decided, hphase] at hrunning
  rw [owed, hphase] at hsent
  exact ⟨hrunning, hsent.trans (List.append_nil _)⟩

theorem refines_handleLine (h : Refines t c) (hphase : t.phase = .looping) (event : Json) :
    Refines (t.handleLine event) (c.handleLine event) := by
  have hsent := (h.looping hphase).2
  have hsend : ∀ e, Refines (t.send e) (c.send e) := by
    intro e
    refine ⟨h.jobId, h.guestWorkspace, h.hostWorkspace, h.running, ?_, h.clear⟩
    show c.sent ++ [e] = (t.sent ++ [e]) ++ (t.send e).owed
    rw [hsent, owed, show (t.send e).phase = t.phase from rfl, hphase]
    simp
  have hterminate : ∀ e, Refines (t.terminate e) (c.send e).finish := by
    intro e
    refine ⟨h.jobId, h.guestWorkspace, h.hostWorkspace, rfl, ?_, nofun⟩
    show c.sent ++ [e] = (t.sent ++ [e]) ++ []
    rw [hsent, List.append_nil]
  -- both sides read the same type; the driver's case follows the task's
  unfold handleLine
  split
  · rename_i htype
    have hline : c.handleLine event = c.send event := by
      simp only [CapsuleDriver.handleLine, htype]
    rw [hline]
    exact hsend _
  · rename_i htype
    have hline : c.handleLine event = c.send event := by
      simp only [CapsuleDriver.handleLine, htype]
    rw [hline]
    exact hsend _
  · rename_i htype
    simp only [CapsuleDriver.handleLine, htype, h.guestWorkspace, h.hostWorkspace]
    exact hsend _
  · rename_i htype
    simp only [CapsuleDriver.handleLine, htype, h.jobId]
    exact hterminate _
  · rename_i htype
    simp only [CapsuleDriver.handleLine, htype, h.jobId]
    exact hterminate _
  · have hline : c.handleLine event = c := by
      simp only [CapsuleDriver.handleLine]
    rw [hline]
    exact h

theorem refines_stop (h : Refines t c) (hphase : t.phase = .looping) :
    Refines { t with suppressTerminalEvent := true, phase := .cleanup } (c.step .stop) := by
  obtain ⟨hrunning, hsent⟩ := h.looping hphase
  have hfinish : c.step .stop = c.finish := by
    unfold CapsuleDriver.step
    rw [if_pos hrunning]
  rw [hfinish]
  refine ⟨h.jobId, h.guestWorkspace, h.hostWorkspace, ?_, ?_, nofun⟩
  · simp [CapsuleDriver.finish, decided]
  · show c.sent = t.sent ++ _
    simp [owed, hsent]

/-- The task defers the failure that the driver reports at once. -/
theorem refines_readError (h : Refines t c) (hphase : t.phase = .looping) (e : String) :
    Refines (t.turn (.nextLine (.error e))) (c.step (.readError e)) := by
  obtain ⟨hsaw, hstop, _⟩ := h.clear hphase
  obtain ⟨hrunning, hsent⟩ := h.looping hphase
  have herror : c.step (.readError e) =
      (c.send (jobFailedEvent c.jobId ("pipe read error: " ++ e) true)).finish := by
    unfold CapsuleDriver.step
    rw [if_pos hrunning]
  rw [herror, h.jobId]
  refine ⟨h.jobId, h.guestWorkspace, h.hostWorkspace, ?_, ?_, nofun⟩
  · simp [CapsuleDriver.finish, decided, turn]
  · show c.sent ++ [_] = t.sent ++ _
    simp [owed, turn, hsaw, hstop, hsent]

/-- The end of the output reaches the driver only with the report on the capsule. -/
theorem refines_endOfOutput (h : Refines t c) (hphase : t.phase = .looping) :
    Refines { t with phase := .cleanup } c := by
  obtain ⟨hsaw, hstop, hdeferred⟩ := h.clear hphase
  obtain ⟨hrunning, hsent⟩ := h.looping hphase
  refine ⟨h.jobId, h.guestWorkspace, h.hostWorkspace, ?_, ?_, nofun⟩
  · simp [decided, hsaw, hstop, hdeferred, hrunning]
  · simp [owed, hsaw, hstop, hdeferred, hsent]

/-- A turn of the loop. -/
theorem refines_turn (h : Refines t c) (hphase : t.phase = .looping) (i : CapsuleTaskInput) :
    Refines (t.turn i) (run CapsuleDriver.step c (t.driverInputs i)) := by
  have hrunning := (h.looping hphase).1
  unfold driverInputs
  rw [hphase]
  cases i with
  | command cmd =>
    cases cmd with
    | none => exact refines_stop h hphase
    | some cmd =>
      cases cmd with
      | stop => exact refines_stop h hphase
      | _ =>
        have hmessage : c.step .message = c := by
          unfold CapsuleDriver.step
          rw [if_pos hrunning]
        show Refines t (c.step .message)
        rw [hmessage]
        exact h
  | destroyed report => exact h
  | nextLine line =>
    cases line with
    | error e => exact refines_readError h hphase e
    | ok line =>
      cases line with
      | none => exact refines_endOfOutput h hphase
      | some line =>
        cases line with
        | none =>
          have hskip : c.step (.line none) = c := by
            unfold CapsuleDriver.step
            rw [if_pos hrunning]
          show Refines t (c.step (.line none))
          rw [hskip]
          exact h
        | some event =>
          have hline : c.step (.line (some event)) = c.handleLine event := by
            unfold CapsuleDriver.step
            rw [if_pos hrunning]
          show Refines (t.handleLine event) (c.step (.line (some event)))
          rw [hline]
          exact refines_handleLine h hphase event

/-- Once the capsule is destroyed, the task sends what it owes; the failure that it makes up
is the one the driver makes up. -/
theorem refines_conclude (h : Refines t c) (hphase : t.phase = .cleanup)
    (report : Except String CapsuleReport) :
    Refines (t.conclude report)
      (run CapsuleDriver.step c (t.driverInputs (.destroyed report))) := by
  have hrunning := h.running
  have hsent := h.sent
  rw [decided, hphase] at hrunning
  rw [owed, hphase] at hsent
  unfold driverInputs conclude
  rw [hphase]
  dsimp only at hrunning hsent ⊢
  cases hflags : t.sawTerminalEvent || t.suppressTerminalEvent with
  | true =>
    -- the outcome has been sent, or is not to be sent
    have hno : (!t.sawTerminalEvent && !t.suppressTerminalEvent) = false := by
      rw [← Bool.not_or, hflags]
      rfl
    rw [hflags] at hrunning hsent
    simp only [hno, Bool.true_or, if_true, Bool.false_eq_true, if_false, run_nil]
    refine ⟨h.jobId, h.guestWorkspace, h.hostWorkspace, ?_, ?_, nofun⟩
    · rw [hrunning]
      rfl
    · rw [hsent]
      simp [owed]
  | false =>
    have hyes : (!t.sawTerminalEvent && !t.suppressTerminalEvent) = true := by
      rw [← Bool.not_or, hflags]
      rfl
    rw [hflags] at hrunning hsent
    simp only [hyes, Bool.false_or, if_true, Bool.false_eq_true, if_false] at hsent hrunning ⊢
    cases hdeferred : t.deferredFailure with
    | some failure =>
      -- the driver has reported this failure before
      rw [hdeferred] at hrunning hsent
      refine ⟨h.jobId, h.guestWorkspace, h.hostWorkspace, ?_, ?_, nofun⟩
      · simpa [decided] using hrunning
      · simpa [owed, send] using hsent
    | none =>
      -- both make the failure up from the report
      rw [hdeferred] at hrunning hsent
      have hend : c.step (.endOfOutput report.toOption) =
          (c.send (capsuleFailureEvent c.jobId report.toOption
            "worker exited unexpectedly (pipe EOF)")).finish := by
        unfold CapsuleDriver.step
        rw [if_pos (by simpa using hrunning)]
      show Refines _ (c.step (.endOfOutput report.toOption))
      rw [hend, h.jobId]
      refine ⟨h.jobId, h.guestWorkspace, h.hostWorkspace, ?_, ?_, nofun⟩
      · simp [CapsuleDriver.finish, CapsuleDriver.send, decided]
      · simpa [owed, send, CapsuleDriver.send, CapsuleDriver.finish] using hsent

/-- A step of the task is one of the driver, or none. -/
theorem refines_step (h : Refines t c) (i : CapsuleTaskInput) :
    Refines (t.step i) (run CapsuleDriver.step c (t.driverInputs i)) := by
  cases hphase : t.phase with
  | looping =>
    rw [step_looping hphase]
    exact refines_turn h hphase i
  | cleanup =>
    by_cases hi : ∃ report, i = .destroyed report
    · obtain ⟨report, rfl⟩ := hi
      rw [step_destroyed hphase]
      exact refines_conclude h hphase report
    · have hnone : t.driverInputs i = [] := by
        unfold driverInputs
        rw [hphase]
        cases i with
        | destroyed report => exact absurd ⟨report, rfl⟩ hi
        | _ => rfl
      rw [step_cleanup hphase (not_exists.mp hi), hnone]
      exact h
  | returned =>
    have hnone : t.driverInputs i = [] := by
      unfold driverInputs
      rw [hphase]
    rw [step_returned hphase, hnone]
    exact h

theorem refines_run (h : Refines t c) (is : List CapsuleTaskInput) :
    ∃ js, Refines (run step t is) (run CapsuleDriver.step c js) := by
  induction is generalizing t c with
  | nil => exact ⟨[], h⟩
  | cons i is ih =>
    obtain ⟨js, hjs⟩ := ih (refines_step h i)
    exact ⟨t.driverInputs i ++ js, by rw [run_append]; exact hjs⟩

end

theorem refines_spawnCapsuleJob (config : Config) (job : Job) (calls : CapsuleCalls) :
    Refines (spawnCapsuleJob config job calls)
      (.spawnCapsuleJob config job (startOf calls)) := by
  unfold spawnCapsuleJob startOf
  dsimp only
  cases calls.create with
  | some e => exact ⟨rfl, rfl, rfl, rfl, rfl, nofun⟩
  | none =>
    cases calls.createDirAll with
    | some e => exact ⟨rfl, rfl, rfl, rfl, rfl, nofun⟩
    | none =>
      cases calls.writeJobSpec with
      | some e => exact ⟨rfl, rfl, rfl, rfl, rfl, nofun⟩
      | none =>
        cases calls.spawn with
        | some e => exact ⟨rfl, rfl, rfl, rfl, rfl, nofun⟩
        | none => exact ⟨rfl, rfl, rfl, rfl, rfl, fun _ => ⟨rfl, rfl, rfl⟩⟩

/-- What the driver has sent is what the task has sent or owes. -/
theorem exists_driver (config : Config) (job : Job) (calls : CapsuleCalls)
    (is : List CapsuleTaskInput) :
    let t := run step (spawnCapsuleJob config job calls) is
    ∃ js, (run CapsuleDriver.step (.spawnCapsuleJob config job (startOf calls)) js).sent =
      t.sent ++ t.owed := by
  intro t
  obtain ⟨js, h⟩ := refines_run (refines_spawnCapsuleJob config job calls) is
  exact ⟨js, h.sent⟩

end CapsuleTask

end ZeptoPM
