import ZeptoPM.InForce
import ZeptoPM.Lifetimes
import ZeptoPM.Queries
import ZeptoPM.Retention
import ZeptoPM.Serving

/- Requests over HTTP that the daemon answers. Each sends a command through the daemon's queue,
   with room for 64, and waits for the reply. In every interleaving with the daemon's other
   inputs, crashes and restarts included, every request has one outcome at most and no run id is
   given out twice (`requests_answered`). A client that was given a run id finds the run under it
   from then on, with its task (`requests_remember`), until the cleanup takes the run; from then
   on nobody finds it (`requests_forget`). A handler that does not come to its end is one that
   has not begun. -/
namespace ZeptoPM
open Daemon OrchestratorEngine

/-! ## Answers -/

/-- What a response carries. -/
inductive Body where
  | ok (status : String)
  | submitted (runId : RunId)
  | runStatus (data : RunStatusData)
  | runs (entries : List RunEntry)
  | result (data : RunResult)
  | metrics (metrics : Metrics)
  | error (error : String)

structure HttpResponse where
  status : Nat
  body : Body

/-- The status of an error depends on the endpoint. -/
def reply {α : Type} (body : α → Body) (code : Nat) : Except String α → HttpResponse
  | .ok a => ⟨200, body a⟩
  | .error e => ⟨code, .error e⟩

def Effect.replied : Effect → Option (Except String String)
  | .reply result => some result
  | _ => none

/-- The replies sent while the last input was handled. -/
def Daemon.replies (d : Daemon) : List (Except String String) := d.sent.filterMap Effect.replied

/-- The answer to a command that the daemon replies to, should it not reply. -/
def replyOf (body : String → Body) (code : Nat) : Option (Except String String) → HttpResponse
  | some result => reply body code result
  | none => ⟨500, .error "daemon did not reply"⟩

/-- The process, with the start of its main loop. -/
structure Host where
  daemon : Daemon
  daemonStart : Instant

namespace Host

/-- The answer when the daemon takes the command; what `post_start` refuses by itself it does not
send. -/
def respond (w : World) (h : Host) (command : DaemonCommand) : HttpResponse :=
  let replied := (h.daemon.step (w, .command command)).replies.head?
  match command with
  | .start _ | .restart _ => replyOf .ok 400 replied
  | .submitRun _ => replyOf .submitted 400 replied
  | .cancelRun _ => replyOf .ok 404 replied
  | .getRunStatus runId => reply .runStatus 404 (h.daemon.engine.getRunStatusData w runId)
  | .listRuns => ⟨200, .runs (h.daemon.engine.getRunsListData w)⟩
  | .getRunResult runId => reply .result 404 (h.daemon.engine.getRunResultData w runId)
  | .getMetrics => ⟨200, .metrics (h.daemon.getMetricsData w h.daemonStart)⟩

/-- Inputs other than commands. -/
def other (h : Host) (x : World × Input) : Host :=
  match x.2 with
  | .command _ => h
  | .start => ⟨h.daemon.step x, x.1.instant⟩
  | _ => { h with daemon := h.daemon.step x }

/-- A start follows a kill, if the process is still there. -/
def drops (h : Host) (x : World × Input) : Bool :=
  match x.2 with
  | .command _ => false
  | .start => true
  | _ => !(h.daemon.step x).alive

end Host

/-! ## Replies -/

section
variable {w : World} {d d' : Daemon}

/-- A relation that leaves the replies alone. -/
def Silent (d d' : Daemon) : Prop := d'.replies = d.replies

theorem silent_send (d : Daemon) {effect : Effect} (h : effect.replied = none) :
    Silent d (d.send effect) := by
  have hsent : (d.send effect).sent = d.sent ++ [effect] := rfl
  unfold Silent Daemon.replies
  rw [hsent, List.filterMap_append, List.filterMap_cons_none h]
  exact List.append_nil _

theorem silent_foldl {α : Type} {g : Daemon → α → Daemon} (hg : ∀ d a, Silent d (g d a))
    (l : List α) (d : Daemon) : Silent d (l.foldl g d) :=
  foldl_relates (R := Silent) (fun _ => rfl) (fun h₁ h₂ => Eq.trans h₂ h₁) l
    (fun a _ d => hg d a) d

theorem manning_silent : Manning Silent where
  refl := fun _ => rfl
  trans := fun h₁ h₂ => Eq.trans h₂ h₁
  send := fun d effect h => silent_send d (by cases effect <;> first | rfl | cases h)
  manage := fun _ _ => rfl

theorem silent_sendInitial (d : Daemon) (channelId : ChannelId) :
    Silent d (d.sendInitial channelId) := by
  unfold Daemon.sendInitial
  split
  · rfl
  · split
    · split
      · exact silent_send d rfl
      · rfl
    · rfl

theorem silent_finish (w : World) (r : RunId) (d : Daemon) : Silent d (Daemon.finish w r d) :=
  (silent_foldl silent_sendInitial _ ((Daemon.spawnLoop w r d).act w _)).trans
    (manning_silent.spawnReady (fun _ => rfl) _ d)

theorem silent_cancelRun (w : World) (d : Daemon) (r : RunId) :
    Silent d (d.cancelRun w r).2 := by
  unfold Daemon.cancelRun
  split
  · rfl
  · have hentry : ∀ (d : Daemon) (entry : JobId × JobStatus), Silent d
        ((d.stopWorker (workerName entry.1)).removeManaged (workerName entry.1)) :=
      fun d entry => manning_silent.dropWorker d (workerName entry.1)
    exact silent_foldl hentry _ d

theorem replies_reply (d : Daemon) (result : Except String String) :
    (d.send (.reply result)).replies = d.replies ++ [result] := by
  have hsent : (d.send (.reply result)).sent = d.sent ++ [.reply result] := rfl
  unfold Daemon.replies
  rw [hsent, List.filterMap_append]
  rfl

theorem step_command (halive : d.alive = true) (w : World) (command : DaemonCommand) :
    d.step (w, .command command) = d.fresh.handleCommand w command :=
  step_of_alive rfl halive w (.command command)

theorem alive_command (halive : d.alive = true) (w : World) (command : DaemonCommand) :
    (d.step (w, .command command)).alive = true := by
  rw [step_command halive]
  exact ((constituent_sameConfig w).skeleton.handleCommand d.fresh command).alive.trans halive

theorem respond_submit {h : Host} (halive : h.daemon.alive = true) (w : World) (task : String) :
    h.respond w (.submitRun task) = ⟨200, .submitted (h.daemon.engine.submitIds w).1⟩ := by
  have hfinish := silent_finish w (h.daemon.fresh.engine.submitRun w task).1
    (h.daemon.fresh.act w (.call (h.daemon.fresh.engine.submitRun w task).1 (.submitRun task)))
  have hreplies : (h.daemon.step (w, .command (.submitRun task))).replies =
      [.ok (h.daemon.engine.submitIds w).1] := by
    rw [step_command halive]
    exact (replies_reply _ _).trans (congrArg (· ++ _) hfinish)
  unfold Host.respond
  rw [hreplies]
  rfl

/-- Nothing but a submission is answered with a new run id. -/
theorem runId_respond {h : Host} {command : DaemonCommand} {r : RunId}
    (hbody : (h.respond w command).body = .submitted r) : ∃ task, command = .submitRun task := by
  have hreply : ∀ {α : Type} (body : α → Body) (code : Nat) (x : Except String α),
      (∀ a, body a ≠ .submitted r) → (reply body code x).body ≠ .submitted r := by
    intro α body code x hne
    cases x with
    | ok a => exact hne a
    | error e => exact nofun
  have hreplyOf : ∀ (code : Nat) (x : Option (Except String String)),
      (replyOf .ok code x).body ≠ .submitted r := by
    intro code x
    cases x with
    | none => exact nofun
    | some result => exact hreply .ok code result (fun _ => nofun)
  cases command with
  | submitRun task => exact ⟨task, rfl⟩
  | start name => exact absurd hbody (hreplyOf 400 _)
  | restart name => exact absurd hbody (hreplyOf 400 _)
  | cancelRun r' => exact absurd hbody (hreplyOf 404 _)
  | getRunStatus r' => exact absurd hbody (hreply .runStatus 404 _ (fun _ => nofun))
  | getRunResult r' => exact absurd hbody (hreply .result 404 _ (fun _ => nofun))
  | listRuns => cases hbody
  | getMetrics => cases hbody

end

/-! ## The daemon behind the queue -/

namespace Host

def service : Service Host DaemonCommand HttpResponse World (World × Input) where
  handle h w command := ({ h with daemon := h.daemon.step (w, .command command) },
    h.respond w command)
  other := other
  up h := h.daemon.alive
  drops := drops
  capacity := 64
  handle_up h w command := fun hup => alive_command hup w command
  down_drops h x := by
    obtain ⟨w, i⟩ := x
    intro hup hdown
    unfold drops
    unfold other at hdown
    cases i with
    | command command => exact absurd (hup.symm.trans hdown) (by decide)
    | start => rfl
    | update u => exact congrArg Bool.not hdown
    | event v => exact congrArg Bool.not hdown
    | tick => exact congrArg Bool.not hdown
    | shutdown => exact congrArg Bool.not hdown

end Host

/-- The daemon with the requests under way. -/
abbrev Requests : Type := Desk Host DaemonCommand HttpResponse

abbrev RequestsInput : Type := DeskInput DaemonCommand World (World × Input)

namespace Requests

def step : Requests → RequestsInput → Requests := Host.service.step

/-- Before the first start. -/
def off (persistent : Bool) (sandboxOverride : Option Bool) (capsule : Bool) : Requests :=
  Service.opening ⟨Daemon.off persistent sandboxOverride capsule, 0⟩

/-- The clock has not fallen behind the start of the process. -/
def Clocked (k : Requests) : RequestsInput → Prop
  | .take w => w.After k.server.daemon.engine.ids
  | .other x => ZeptoPM.Clocked k.server.daemon x
  | _ => True

/-- The cleanup at a tick takes the run away. -/
def Takes (r : RunId) (k : Requests) (x : RequestsInput) : Prop :=
  ∃ w, x = .other (w, .tick) ∧ k.server.daemon.Loses (k.server.daemon.step (w, .tick)) r

end Requests

/-- The run id that the client was given, if it was given one. -/
def Upshot.submitted (o : Upshot DaemonCommand HttpResponse) : Option RunId :=
  match o.answer with
  | some ⟨_, .submitted r⟩ => some r
  | _ => none

theorem Upshot.submitted_eq_some {o : Upshot DaemonCommand HttpResponse} {r : RunId} :
    o.submitted = some r ↔ ∃ response, o.answer = some response ∧ response.body = .submitted r := by
  unfold Upshot.submitted
  split
  · rename_i code r' hanswer
    rw [hanswer]
    refine ⟨fun h => ?_, fun h => ?_⟩
    · cases h
      exact ⟨_, rfl, rfl⟩
    · obtain ⟨_, hresponse, hbody⟩ := h
      cases hresponse
      cases hbody
      rfl
  · rename_i hno
    refine iff_of_false nofun fun h => ?_
    obtain ⟨⟨code, body⟩, hresponse, hbody⟩ := h
    cases hbody
    exact hno code r hresponse

/-! ## The daemon's part in a step -/

section
variable {persistent : Bool} {sandboxOverride : Option Bool} {capsule : Bool} {k : Requests}
  {x : RequestsInput} {d : Daemon} {r : RunId} {task : String}

/-- The daemon has come here from its first start. -/
def Daemon.Reached (persistent : Bool) (sandboxOverride : Option Bool) (capsule : Bool)
    (d : Daemon) : Prop :=
  ∃ is, Meets Daemon.step Clocked (Daemon.off persistent sandboxOverride capsule) is ∧
    d = run Daemon.step (Daemon.off persistent sandboxOverride capsule) is

theorem Daemon.Reached.meets {is : List (World × Input)} {y : World × Input}
    (h : Meets Daemon.step Clocked (Daemon.off persistent sandboxOverride capsule) is)
    (hy : Clocked (run Daemon.step (Daemon.off persistent sandboxOverride capsule) is) y) :
    Meets Daemon.step Clocked (Daemon.off persistent sandboxOverride capsule) (is ++ [y]) :=
  Meets.append.mpr ⟨h, hy, True.intro⟩

theorem Daemon.Reached.step (h : d.Reached persistent sandboxOverride capsule)
    {y : World × Input} (hy : Clocked d y) :
    (d.step y).Reached persistent sandboxOverride capsule := by
  obtain ⟨is, his, rfl⟩ := h
  refine ⟨is ++ [y], Daemon.Reached.meets his hy, ?_⟩
  rw [run_append]
  rfl

theorem Daemon.Reached.sound (h : d.Reached persistent sandboxOverride capsule) :
    Sound d.core := by
  obtain ⟨is, his, rfl⟩ := h
  exact sound_run (sound_off persistent sandboxOverride capsule) his

theorem Daemon.Reached.agrees (h : d.Reached persistent sandboxOverride capsule)
    (halive : d.alive = true) : ∀ db, d.core.db = some db → d.core.Agrees db := by
  obtain ⟨is, his, rfl⟩ := h
  exact agrees_run persistent sandboxOverride capsule his halive

theorem Daemon.Reached.outlasts (h : d.Reached persistent sandboxOverride capsule)
    {y : World × Input} (hy : Clocked d y) : d.Outlasts y :=
  outlasts_of_agrees h.sound hy (h.step hy).agrees

theorem daemon_take {w : World} {ticket : Ticket DaemonCommand}
    {queue : List (Ticket DaemonCommand)} (hqueue : k.queue = ticket :: queue) :
    (k.step (.take w)).server.daemon =
      k.server.daemon.step (w, .command ticket.command) := by
  show (Host.service.take k w).server.daemon = _
  unfold Service.take
  rw [hqueue]
  rfl

theorem bound_step {J : Job → Prop} {R : Run → Prop}
    (hJ : ∀ job job' : Job, job'.identity = job.identity → J job → J job')
    (hR : ∀ run run' : Run, run'.identity = run.identity → R run → R run')
    (hd : d.Reached persistent sandboxOverride capsule) (h : Bound r J R d.core)
    {y : World × Input} (hy : Clocked d y) : Bound r J R (d.step y).core := by
  have hmeets : Meets Daemon.step Clocked d [y] := ⟨hy, True.intro⟩
  exact bound_run hJ hR hd.sound hmeets h

/-- Behind the queue the daemon makes its own steps: it handles the command that is taken, or
an input of its own, or it is left alone. -/
theorem daemon_step (hx : k.Clocked x) :
    (k.step x).server.daemon = k.server.daemon ∨
      (∃ w ticket queue, x = .take w ∧ k.queue = ticket :: queue ∧
        Clocked k.server.daemon (w, .command ticket.command) ∧
        (k.step x).server.daemon = k.server.daemon.step (w, .command ticket.command)) ∨
      ∃ y, x = .other y ∧ Clocked k.server.daemon y ∧
        (k.step x).server.daemon = k.server.daemon.step y := by
  cases x with
  | ask command =>
    refine Or.inl ?_
    show (if Host.service.up k.server then _ else k).server.daemon = _
    split <;> rfl
  | enter n =>
    refine Or.inl ?_
    show (Host.service.enter k n).server.daemon = _
    unfold Service.enter
    split
    · rfl
    · split <;> rfl
  | take w =>
    cases hqueue : k.queue with
    | nil =>
      refine Or.inl ?_
      show (Host.service.take k w).server.daemon = _
      unfold Service.take
      rw [hqueue]
    | cons ticket queue =>
      exact Or.inr (Or.inl ⟨w, ticket, queue, rfl, rfl, hx, daemon_take hqueue⟩)
  | other y =>
    have hserver : (k.step (.other y)).server = k.server.other y := by
      show (Host.service.otherwise k y).server = _
      unfold Service.otherwise
      split <;> rfl
    rw [hserver]
    obtain ⟨w, i⟩ := y
    cases i with
    -- commands come out of the queue only
    | command command => exact Or.inl rfl
    | update u => exact Or.inr (Or.inr ⟨_, rfl, hx, rfl⟩)
    | event v => exact Or.inr (Or.inr ⟨_, rfl, hx, rfl⟩)
    | tick => exact Or.inr (Or.inr ⟨_, rfl, hx, rfl⟩)
    | shutdown => exact Or.inr (Or.inr ⟨_, rfl, hx, rfl⟩)
    | start => exact Or.inr (Or.inr ⟨_, rfl, hx, rfl⟩)

/-- What the daemon's steps keep, the steps of the requests keep. -/
theorem kept_behind {P : Daemon → Prop} (hP : ∀ d y, P d → Clocked d y → P (d.step y))
    (hp : P k.server.daemon) (hx : k.Clocked x) : P (k.step x).server.daemon := by
  rcases daemon_step hx with hsame | ⟨w, ticket, _, _, _, hclocked, hstep⟩ | ⟨y, _, hclocked, hstep⟩
  · rw [hsame]
    exact hp
  · rw [hstep]
    exact hP _ _ hp hclocked
  · rw [hstep]
    exact hP _ _ hp hclocked

/-! ## A run that was submitted -/

/-- The run is known by its task, in the database and, while the process is alive, in the
engine. -/
structure Holds (r : RunId) (task : String) (d : Daemon) : Prop where
  bound : Bound r (fun _ => True) (fun run => run.task = task) d.core
  row : d.core.HasRun r
  found : d.alive = true → ∃ run, d.engine.store.getRun r = some run

theorem task_of_identity {run run' : Run} (h : run'.identity = run.identity)
    (ht : run.task = task) : run'.task = task :=
  (congrArg Run.task h).trans ht

/-- A database that is there has a row of every run of the engine. -/
theorem row_of_found (hd : d.Reached persistent sandboxOverride capsule) (halive : d.alive = true)
    {db : SqlitePersistence} (hdb : d.core.db = some db) {run : Run}
    (hrun : d.engine.store.getRun r = some run) : d.core.HasRun r := by
  refine ⟨db, hdb, Option.isSome_iff_exists.mp ?_⟩
  rw [(hd.agrees halive db hdb).run r]
  exact Option.isSome_iff_exists.mpr ⟨run, hrun⟩

theorem found_of_row (hd : d.Reached persistent sandboxOverride capsule) (halive : d.alive = true)
    (hrow : d.core.HasRun r) : ∃ run, d.engine.store.getRun r = some run := by
  obtain ⟨db, hdb, row, hrow⟩ := hrow
  refine Option.isSome_iff_exists.mp ?_
  show (d.core.engine.store.getRun r).isSome = true
  rw [← (hd.agrees halive db hdb).run r]
  exact Option.isSome_iff_exists.mpr ⟨row, hrow⟩

/-- No step makes a database go or come. -/
theorem db_coreStep (c : Core) (x : World × Action) : (coreStep c x).db.isSome = c.db.isSome := by
  obtain ⟨w, a⟩ := x
  cases a with
  | persistRunState r => exact Option.isSome_map
  | persistArtifact a => exact Option.isSome_map
  | expire r => exact Option.isSome_map
  | _ => rfl

theorem db_step (hd : d.Reached persistent sandboxOverride capsule) {y : World × Input}
    (hy : Clocked d y) : (d.step y).core.db.isSome = d.core.db.isSome := by
  obtain ⟨hcore, _, _, _⟩ := step_takes y.2 ⟨hd.sound, hy⟩
  have hrun : ∀ (l : List (World × Action)) (c : Core),
      (run coreStep c l).db.isSome = c.db.isSome := by
    intro l
    induction l with
    | nil => exact fun _ => rfl
    | cons x l ih => exact fun c => (ih (coreStep c x)).trans (db_coreStep c x)
  show (d.step (y.1, y.2)).core.db.isSome = _
  rw [hcore]
  exact hrun ..

/-- The run stays known unless the cleanup takes it. -/
theorem Holds.step (hd : d.Reached persistent sandboxOverride capsule) (h : Holds r task d)
    {y : World × Input} (hy : Clocked d y) (hkept : y.2 = .tick → ¬ d.Loses (d.step y) r) :
    Holds r task (d.step y) := by
  have hd' : (d.step y).Reached persistent sandboxOverride capsule := hd.step hy
  have hrow : (d.step y).core.HasRun r := by
    -- no step but a tick takes a row, and a tick only with the run
    by_cases htick : d.alive = true ∧ y.2 = .tick
    · obtain ⟨w, i⟩ := y
      obtain ⟨halive, hi⟩ := htick
      subst hi
      have hfound : ∃ run, (d.step (w, .tick)).engine.store.getRun r = some run := by
        refine Option.ne_none_iff_exists'.mp (fun hnone => ?_)
        exact hkept rfl ⟨h.found halive, hnone⟩
      obtain ⟨run, hrun⟩ := hfound
      obtain ⟨db, hdb, _⟩ := h.row
      have hsome : (d.step (w, .tick)).core.db.isSome = true := by
        rw [db_step hd hy, hdb]
        rfl
      obtain ⟨db', hdb'⟩ := Option.isSome_iff_exists.mp hsome
      exact row_of_found hd' (alive_tick halive w) hdb' hrun
    · exact (hd.outlasts hy).rows (fun halive hi => htick ⟨halive, hi⟩) |>.run r h.row
  have hbound : Bound r (fun _ => True) (fun run => run.task = task) (d.step y).core :=
    bound_step (fun _ _ _ _ => True.intro) (fun _ _ hid ht => task_of_identity hid ht) hd
      h.bound hy
  exact ⟨hbound, hrow, fun halive => found_of_row hd' halive hrow⟩

/-- The first thing that is done for a submission is the engine's `submit_run`. -/
theorem calls_submitRun (halive : d.alive = true) (w : World) (task : String) :
    ∃ l, (d.step (w, .command (.submitRun task))).calls =
      (w, .call (d.engine.submitIds w).1 (.submitRun task)) :: l := by
  have hk : Skeleton w (Did (fun _ => True) w) true true :=
    skeleton_did (fun _ _ => True.intro) (fun _ => True.intro) w
  obtain ⟨l, hl, _⟩ := hk.finish (r := (d.fresh.engine.submitRun w task).1)
    (d.fresh.act w (.call (d.fresh.engine.submitRun w task).1 (.submitRun task)))
  refine ⟨l, ?_⟩
  rw [step_command halive]
  exact hl

/-- What is known under the id of a new run has the task that was submitted. -/
theorem bound_submitRun (hs : Sound d.core) (halive : d.alive = true) {w : World}
    (hw : w.After d.engine.ids) (task : String) :
    Bound (d.engine.submitIds w).1 (fun _ => True) (fun run => run.task = task)
      (d.step (w, .command (.submitRun task))).core := by
  obtain ⟨hcore, hlegal, _, _⟩ := step_takes (.command (.submitRun task)) ⟨hs, hw⟩
  obtain ⟨l, hcalls⟩ := calls_submitRun halive w task
  rw [hcalls] at hcore hlegal
  have hnew : Bound (d.engine.submitIds w).1 (fun _ => True) (fun run => run.task = task)
      (coreStep d.core (w, .call (d.engine.submitIds w).1 (.submitRun task))) := by
    refine ⟨submitIds_issued w d.engine task, fun _ _ => True.intro, fun run hrun => ?_⟩
    rcases hrun with hrun | ⟨db, hdb, hrow⟩
    · have hget := getRun_submitRun w d.engine task (d.engine.submitIds w).1
      rw [if_pos rfl] at hget
      cases hrun.symm.trans hget
      rfl
    · have hold : d.core.KnowsRun (d.engine.submitIds w).1 run := Or.inr ⟨db, hdb, hrow⟩
      exact absurd (issued_of_knownRun hs hold) (submitIds_fresh hw)
  rw [hcore]
  have hkeep : ∀ c y, (Sound c ∧ Bound (d.engine.submitIds w).1 (fun _ => True)
      (fun run => run.task = task) c) → Legal c y → (Sound (coreStep c y) ∧
        Bound (d.engine.submitIds w).1 (fun _ => True) (fun run => run.task = task)
          (coreStep c y)) :=
    fun c y hc hy => ⟨sound_act hc.1 hy, bound_act (fun _ _ _ _ => True.intro)
      (fun _ _ hid ht => task_of_identity hid ht) hc.1 hy hc.2⟩
  exact (run_invariant hkeep ⟨sound_act hs hlegal.1, hnew⟩ hlegal.2).2

/-- The engine has the new run when the submission has been handled. -/
theorem found_submitRun (halive : d.alive = true) (w : World) (task : String) :
    ∃ run, (d.step (w, .command (.submitRun task))).engine.store.getRun (d.engine.submitIds w).1 =
      some run := by
  have hget := getRun_submitRun w d.engine task (d.engine.submitIds w).1
  rw [if_pos rfl] at hget
  have hupheld := (upheld_finish (w := w) (r := (d.fresh.engine.submitRun w task).1)
    (d.fresh.act w (.call (d.fresh.engine.submitRun w task).1 (.submitRun task)))).run
      (d.engine.submitIds w).1
  rw [step_command halive]
  rcases hupheld with hsame | ⟨_, run, _, hrun, _⟩
  · exact ⟨_, hsame.trans hget⟩
  · exact ⟨run, hrun⟩

theorem holds_submitRun (hd : d.Reached persistent sandboxOverride capsule)
    (halive : d.alive = true) (hdb : d.core.db.isSome = true) {w : World}
    (hw : w.After d.engine.ids) (task : String) :
    Holds (d.engine.submitIds w).1 task (d.step (w, .command (.submitRun task))) := by
  have hclocked : Clocked d (w, .command (.submitRun task)) := hw
  obtain ⟨run, hrun⟩ := found_submitRun halive w task
  have hsome : (d.step (w, .command (.submitRun task))).core.db.isSome = true := by
    rw [db_step hd hclocked]
    exact hdb
  obtain ⟨db, hdb⟩ := Option.isSome_iff_exists.mp hsome
  exact ⟨bound_submitRun hd.sound halive hw task,
    row_of_found (hd.step hclocked) (alive_command halive w _) hdb hrun, fun _ => ⟨run, hrun⟩⟩

end

/-! ## What later requests are answered -/

/-- What clients are answered who ask for a run that is known. -/
def Recalls (r : RunId) (task : String) : DaemonCommand → HttpResponse → Prop
  | .getRunStatus r', response => r' = r → ∃ data, response = ⟨200, .runStatus data⟩ ∧
      data.runId = r ∧ data.task = task
  | .getRunResult r', response => r' = r → ∃ data, response = ⟨200, .result data⟩ ∧
      data.runId = r ∧ data.task = task
  | .listRuns, response => ∃ entries status, response = ⟨200, .runs entries⟩ ∧
      entries.filter (·.runId == r) = [⟨r, task, status⟩]
  | .cancelRun r', response => r' = r → (∃ message, response = ⟨200, .ok message⟩) ∨
      ∃ status ∈ [RunStatus.completed, .failed, .cancelled],
        response = ⟨404, .error ("run '" ++ r ++ "' is already " ++ status.text)⟩
  | _, _ => True

/-- What clients are answered who ask for a run that is not known. -/
def Forgets (r : RunId) : DaemonCommand → HttpResponse → Prop
  | .getRunStatus r', response | .getRunResult r', response | .cancelRun r', response =>
    r' = r → response = ⟨404, .error ("run '" ++ r ++ "' not found")⟩
  | .listRuns, response => ∃ entries, response = ⟨200, .runs entries⟩ ∧
      r ∉ entries.map (·.runId)
  | _, _ => True

section
variable {h : Host} {w : World} {r : RunId} {task : String}

theorem respond_cancelRun (halive : h.daemon.alive = true) (w : World) (r : RunId) :
    h.respond w (.cancelRun r) = reply .ok 404 (h.daemon.engine.cancelRun w r).1 := by
  have hcancel := silent_cancelRun w h.daemon.fresh r
  have hreplies : (h.daemon.step (w, .command (.cancelRun r))).replies =
      [(h.daemon.engine.cancelRun w r).1] := by
    have hfst : (h.daemon.fresh.cancelRun w r).1 = (h.daemon.engine.cancelRun w r).1 := by
      unfold Daemon.cancelRun
      show _ = (h.daemon.fresh.engine.cancelRun w r).1
      split
      · rename_i e he
        exact he.symm
      · rename_i message hmessage
        exact hmessage.symm
    rw [step_command halive, handleCommand_cancelRun, ← hfst]
    generalize h.daemon.fresh.cancelRun w r = x at hcancel
    obtain ⟨result, d⟩ := x
    cases result with
    | ok message => exact (replies_reply _ _).trans (congrArg (· ++ _) hcancel)
    | error e => exact (replies_reply _ _).trans (congrArg (· ++ _) hcancel)
  unfold Host.respond
  rw [hreplies]
  rfl

theorem filter_key_nodup {α : Type} {f : α → RunId} {l : List α} (hl : (l.map f).Nodup) {a : α}
    (ha : a ∈ l) : l.filter (fun b => f b == f a) = [a] := by
  induction l with
  | nil => cases ha
  | cons b l ih =>
    rw [List.map_cons, List.nodup_cons] at hl
    rcases List.mem_cons.mp ha with rfl | ha
    · have hnone : l.filter (fun b => f b == f a) = [] := by
        refine List.filter_eq_nil_iff.mpr (fun b hb heq => hl.1 ?_)
        rw [← beq_iff_eq.mp heq]
        exact List.mem_map_of_mem hb
      rw [List.filter_cons_of_pos (p := fun b => f b == f a) (beq_self_eq_true (f a)), hnone]
    · have hne : ¬ (f b == f a) = true := by
        intro heq
        rw [beq_iff_eq] at heq
        exact hl.1 (heq ▸ List.mem_map_of_mem ha)
      rw [List.filter_cons_of_neg (p := fun b => f b == f a) hne]
      exact ih hl.2 ha

theorem recalls_respond (hh : Holds r task h.daemon) (halive : h.daemon.alive = true) (w : World)
    (command : DaemonCommand) : Recalls r task command (h.respond w command) := by
  obtain ⟨run, hrun⟩ := hh.found halive
  have htask : run.task = task := hh.bound.run run (Or.inl hrun)
  have hid : run.runId = r := RunStore.runId_of_getRun hrun
  cases command with
  | getRunStatus r' =>
    intro hr
    subst hr
    show ∃ data, reply _ 404 (h.daemon.engine.getRunStatusData w r') = _ ∧ _
    rw [getRunStatusData_of_run hrun]
    exact ⟨_, rfl, hid, htask⟩
  | getRunResult r' =>
    intro hr
    subst hr
    show ∃ data, reply _ 404 (h.daemon.engine.getRunResultData w r') = _ ∧ _
    unfold getRunResultData
    rw [hrun]
    exact ⟨_, rfl, hid, htask⟩
  | listRuns =>
    refine ⟨_, run.status.text, rfl, ?_⟩
    have hmem : run.entry ∈ h.daemon.engine.getRunsListData w :=
      List.mem_map_of_mem (mem_listRuns.mpr (hid ▸ hrun))
    have hnodup : ((h.daemon.engine.getRunsListData w).map (·.runId)).Nodup := by
      unfold getRunsListData
      rw [List.map_map]
      exact listRuns_nodup w _
    have hfilter := filter_key_nodup hnodup hmem
    have hentry : run.entry = ⟨r, task, run.status.text⟩ := by
      rw [← hid, ← htask]
      rfl
    rw [hentry] at hfilter
    exact hfilter
  | cancelRun r' =>
    intro hr
    subst hr
    rw [respond_cancelRun halive]
    unfold OrchestratorEngine.cancelRun
    rw [hrun]
    dsimp only
    split
    · rename_i hover
      refine Or.inr ⟨run.status, ?_, rfl⟩
      cases hstatus : run.status with
      | pending => simp [hstatus] at hover
      | running => simp [hstatus] at hover
      | _ => simp
    · exact Or.inl ⟨_, rfl⟩
  | _ => exact True.intro

theorem forgets_respond (hnone : h.daemon.engine.store.getRun r = none)
    (halive : h.daemon.alive = true) (w : World) (command : DaemonCommand) :
    Forgets r command (h.respond w command) := by
  cases command with
  | getRunStatus r' =>
    intro hr
    subst hr
    show reply _ 404 (h.daemon.engine.getRunStatusData w r') = _
    unfold getRunStatusData
    rw [hnone]
    rfl
  | getRunResult r' =>
    intro hr
    subst hr
    show reply _ 404 (h.daemon.engine.getRunResultData w r') = _
    unfold getRunResultData
    rw [hnone]
    rfl
  | listRuns =>
    refine ⟨_, rfl, fun hmem => ?_⟩
    obtain ⟨entry, hentry, hid⟩ := List.mem_map.mp hmem
    obtain ⟨run, hrun, rfl⟩ := List.mem_map.mp hentry
    have hrun := mem_listRuns.mp hrun
    rw [show run.runId = r from hid, hnone] at hrun
    cases hrun
  | cancelRun r' =>
    intro hr
    subst hr
    rw [respond_cancelRun halive]
    unfold OrchestratorEngine.cancelRun
    rw [hnone]
    rfl
  | _ => exact True.intro

end

/-! ## Every interleaving -/

namespace Requests

/-- What every request can count on. -/
structure Answers (k : Requests) : Prop where
  /-- It is at one place, and nobody waits for a process that is gone. -/
  orderly : Host.service.Orderly k
  /-- It has one outcome at most. -/
  once : (k.outcomes.map (·.number)).Nodup
  /-- No run id is given out twice. -/
  distinct : (k.outcomes.filterMap Upshot.submitted).Nodup

structure Sound (persistent : Bool) (sandboxOverride : Option Bool) (capsule : Bool)
    (k : Requests) : Prop extends Answers k where
  reached : k.server.daemon.Reached persistent sandboxOverride capsule
  /-- The ids that were given out were drawn. -/
  issued : ∀ r ∈ k.outcomes.filterMap Upshot.submitted, Issued k.server.daemon.engine.ids r

section
variable {persistent : Bool} {sandboxOverride : Option Bool} {capsule : Bool} {k : Requests}
  {x : RequestsInput}

theorem issued_step {d : Daemon} {r : RunId} (hd : d.Reached persistent sandboxOverride capsule)
    (h : Issued d.engine.ids r) {y : World × Input} (hy : ZeptoPM.Clocked d y) :
    Issued (d.step y).engine.ids r := by
  have hbound : Bound r (fun _ => True) (fun _ => True) (d.step y).core :=
    bound_step (fun _ _ _ _ => True.intro) (fun _ _ _ _ => True.intro) hd
      ⟨h, fun _ _ => True.intro, fun _ _ => True.intro⟩ hy
  exact hbound.issued

/-- What is known of the daemon and of ids behind the queue. -/
theorem reached_step (h : k.server.daemon.Reached persistent sandboxOverride capsule)
    (hx : k.Clocked x) : (k.step x).server.daemon.Reached persistent sandboxOverride capsule :=
  kept_behind (P := Daemon.Reached persistent sandboxOverride capsule)
    (fun _ _ hd hy => hd.step hy) h hx

theorem issued_behind {r : RunId}
    (h : k.server.daemon.Reached persistent sandboxOverride capsule)
    (hr : Issued k.server.daemon.engine.ids r) (hx : k.Clocked x) :
    Issued (k.step x).server.daemon.engine.ids r :=
  (kept_behind (P := fun d => d.Reached persistent sandboxOverride capsule ∧
      Issued d.engine.ids r)
    (fun _ _ hd hy => ⟨hd.1.step hy, issued_step hd.1 hd.2 hy⟩) ⟨h, hr⟩ hx).2

/-- An answer that gives out a run id. -/
theorem submitted_respond {h : Host} (halive : h.daemon.alive = true) {w : World}
    {ticket : Ticket DaemonCommand} {r : RunId}
    (ho : Upshot.submitted ⟨ticket, some (h.respond w ticket.command)⟩ = some r) :
    ∃ task, ticket.command = .submitRun task ∧ r = (h.daemon.engine.submitIds w).1 := by
  obtain ⟨response, hresponse, hbody⟩ := Upshot.submitted_eq_some.mp ho
  cases hresponse
  obtain ⟨task, htask⟩ := runId_respond hbody
  refine ⟨task, htask, ?_⟩
  rw [htask, respond_submit halive] at hbody
  cases hbody
  rfl

theorem submitted_none (tickets : List (Ticket DaemonCommand)) :
    (tickets.map (Upshot.mk (R := HttpResponse) · none)).filterMap Upshot.submitted = [] := by
  refine List.filterMap_eq_nil_iff.mpr fun o ho => ?_
  obtain ⟨ticket, _, rfl⟩ := List.mem_map.mp ho
  rfl

theorem sound_step (k : Requests) (x : RequestsInput)
    (h : Sound persistent sandboxOverride capsule k) (hx : k.Clocked x) :
    Sound persistent sandboxOverride capsule (k.step x) := by
  have hold : ∀ r ∈ k.outcomes.filterMap Upshot.submitted,
      Issued (k.step x).server.daemon.engine.ids r :=
    fun r hr => issued_behind h.reached (h.issued r hr) hx
  have horderly : Host.service.Orderly (k.step x) := Service.orderly_step h.orderly x
  rcases Service.outcomes_step Host.service k x with ⟨tickets, hout⟩ | ⟨w, ticket, queue, rfl,
    hqueue, hout⟩
  · have hout : (k.step x).outcomes = k.outcomes ++ tickets.map (Upshot.mk · none) := hout
    have hsubmitted : (k.step x).outcomes.filterMap Upshot.submitted =
        k.outcomes.filterMap Upshot.submitted := by
      rw [hout, List.filterMap_append, submitted_none, List.append_nil]
    exact ⟨⟨horderly, horderly.outcomes_nodup, hsubmitted ▸ h.distinct⟩,
      reached_step h.reached hx, hsubmitted ▸ hold⟩
  · have halive : k.server.daemon.alive = true := h.orderly.up_of_queue hqueue
    have hw : w.After k.server.daemon.engine.ids := hx
    have hout : (k.step (.take w)).outcomes =
        k.outcomes ++ [⟨ticket, some (k.server.respond w ticket.command)⟩] := hout
    cases hnew : Upshot.submitted ⟨ticket, some (k.server.respond w ticket.command)⟩ with
    | none =>
      have hsubmitted : (k.step (.take w)).outcomes.filterMap Upshot.submitted =
          k.outcomes.filterMap Upshot.submitted := by
        rw [hout, List.filterMap_append, List.filterMap_cons_none hnew, List.filterMap_nil,
          List.append_nil]
      exact ⟨⟨horderly, horderly.outcomes_nodup, hsubmitted ▸ h.distinct⟩,
        reached_step h.reached hx, hsubmitted ▸ hold⟩
    | some r =>
      have hsubmitted : (k.step (.take w)).outcomes.filterMap Upshot.submitted =
          k.outcomes.filterMap Upshot.submitted ++ [r] := by
        rw [hout, List.filterMap_append, List.filterMap_cons_some hnew, List.filterMap_nil]
      obtain ⟨task, htask, hr⟩ := submitted_respond halive hnew
      refine ⟨⟨horderly, horderly.outcomes_nodup, ?_⟩, reached_step h.reached hx, ?_⟩
      · -- the new id has not been drawn before
        rw [hsubmitted]
        refine List.nodup_append.mpr ⟨h.distinct, List.nodup_singleton r, ?_⟩
        intro r' hr' r'' hr'' heq
        rw [List.mem_singleton.mp hr''] at heq
        have hissued := h.issued r' hr'
        rw [heq, hr] at hissued
        exact submitIds_fresh hw hissued
      · rw [hsubmitted]
        intro r' hr'
        rcases List.mem_append.mp hr' with hr' | hr'
        · exact hold r' hr'
        · rw [List.mem_singleton.mp hr']
          rw [daemon_take hqueue, htask, hr]
          exact (bound_submitRun h.reached.sound halive hw task).issued

theorem sound_off : Sound persistent sandboxOverride capsule
    (off persistent sandboxOverride capsule) where
  orderly := Service.orderly_opening ..
  once := List.nodup_nil
  distinct := List.nodup_nil
  reached := ⟨[], True.intro, rfl⟩
  issued := fun _ hr => by cases hr

theorem sound_run {xs : List RequestsInput}
    (h : Meets step Clocked (off persistent sandboxOverride capsule) xs) :
    Sound persistent sandboxOverride capsule
      (run step (off persistent sandboxOverride capsule) xs) :=
  run_invariant (fun k x hk hx => sound_step k x hk hx) sound_off h

end

/-- Of all requests, in every interleaving with the daemon's other inputs, crashes and
restarts. -/
theorem requests_answered (persistent : Bool) (sandboxOverride : Option Bool) (capsule : Bool)
    (xs : List RequestsInput)
    (h : Meets step Clocked (off persistent sandboxOverride capsule) xs) :
    (run step (off persistent sandboxOverride capsule) xs).Answers :=
  (sound_run h).toAnswers

instance Clocked.decidable (k : Requests) : ∀ x, Decidable (k.Clocked x)
  | .ask _ => isTrue True.intro
  | .enter _ => isTrue True.intro
  | .take w => inferInstanceAs (Decidable (w.After k.server.daemon.engine.ids))
  | .other x => inferInstanceAs (Decidable (ZeptoPM.Clocked k.server.daemon x))

deriving instance DecidableEq for DaemonCommand

/-- A request through the queue. -/
def request (command : DaemonCommand) (w : World) : List RequestsInput :=
  [.ask command, .enter 0, .take w]

/-- A run is submitted. -/
def submittedRequests : List RequestsInput :=
  .other (dailyWorld 1 0, .start) :: request (.submitRun "task") (dailyWorld 1 0)

theorem requests_answered_submitted :
    (run step (off true none false) submittedRequests).Answers :=
  requests_answered true none false submittedRequests (by decide +kernel)

section
variable {sandboxOverride : Option Bool} {capsule : Bool} {k : Requests} {x : RequestsInput}
  {r : RunId} {task : String}

theorem holds_behind {persistent : Bool}
    (hd : k.server.daemon.Reached persistent sandboxOverride capsule)
    (h : Holds r task k.server.daemon) (hx : k.Clocked x) (ht : ¬ Takes r k x) :
    Holds r task (k.step x).server.daemon := by
  rcases daemon_step hx with hsame | ⟨w, ticket, _, _, _, hclocked, hstep⟩ |
    ⟨y, rfl, hclocked, hstep⟩
  · rw [hsame]
    exact h
  · rw [hstep]
    exact h.step hd hclocked nofun
  · obtain ⟨w, i⟩ := y
    rw [hstep]
    refine h.step hd hclocked (fun hi hloses => ht ⟨w, ?_, ?_⟩)
    · rw [show i = .tick from hi]
    · rw [show i = .tick from hi] at hloses
      exact hloses

/-- The submission of the task was answered with the id. -/
abbrev GaveOut (r : RunId) (task : String) (k : Requests) : Prop :=
  ∃ o ∈ k.outcomes, o.command = .submitRun task ∧ o.submitted = some r

/-- Of a daemon with a database. -/
structure Remembers (sandboxOverride : Option Bool) (capsule : Bool) (r : RunId) (task : String)
    (k : Requests) : Prop extends Sound true sandboxOverride capsule k where
  db : k.server.daemon.core.db.isSome = true
  held : k.GaveOut r task → Holds r task k.server.daemon

theorem remembers_step (h : Remembers sandboxOverride capsule r task k) (hx : k.Clocked x)
    (ht : ¬ Takes r k x) : Remembers sandboxOverride capsule r task (k.step x) := by
  have hdb : (k.step x).server.daemon.core.db.isSome = true :=
    (kept_behind (P := fun d => d.Reached true sandboxOverride capsule ∧ d.core.db.isSome = true)
      (fun _ _ hd hy => ⟨hd.1.step hy, (db_step hd.1 hy).trans hd.2⟩) ⟨h.reached, h.db⟩ hx).2
  refine ⟨sound_step k x h.toSound hx, hdb, ?_⟩
  rintro ⟨o, ho, hcommand, hsubmitted⟩
  rcases Service.outcome_cases Host.service ho with hold | hnone |
    ⟨w, ticket, queue, rfl, hqueue, rfl⟩
  · exact holds_behind h.reached (h.held ⟨o, hold, hcommand, hsubmitted⟩) hx ht
  · obtain ⟨response, hresponse, _⟩ := Upshot.submitted_eq_some.mp hsubmitted
    cases hresponse.symm.trans hnone
  · have halive : k.server.daemon.alive = true := h.orderly.up_of_queue hqueue
    obtain ⟨_, _, hr⟩ := submitted_respond halive hsubmitted
    have hcommand : ticket.command = .submitRun task := hcommand
    rw [daemon_take hqueue, hcommand, hr]
    exact holds_submitRun h.reached halive h.db hx task

theorem remembers_off : Remembers sandboxOverride capsule r task
    (off true sandboxOverride capsule) := by
  refine ⟨sound_off, rfl, ?_⟩
  rintro ⟨o, ho, _⟩
  cases ho

end

/-- A run id that was given out stands for its task in all later answers, across crashes and
restarts, while the cleanup leaves the run. -/
theorem requests_remember (sandboxOverride : Option Bool) (capsule : Bool) (r : RunId)
    (task : String) (xs ys : List RequestsInput)
    (h : Meets step (fun k x => k.Clocked x ∧ ¬ Takes r k x) (off true sandboxOverride capsule)
      (xs ++ ys)) :
    let k := run step (off true sandboxOverride capsule) xs
    k.GaveOut r task → ∀ o ∈ (run step k ys).outcomes, k.asked ≤ o.number →
      ∀ response, o.answer = some response → Recalls r task o.command response := by
  intro k hgave
  obtain ⟨hxs, hys⟩ := Meets.append.mp h
  have hk : Remembers sandboxOverride capsule r task k :=
    run_invariant (fun _ _ hk hx => remembers_step hk hx.1 hx.2) remembers_off hxs
  refine Service.answered_later (v := Host.service) (Q := Recalls r task)
    (P := fun s => s.daemon.Reached true sandboxOverride capsule ∧ Holds r task s.daemon)
    ?_ ?_ hk.orderly ⟨hk.reached, hk.held hgave⟩ hys
  · exact fun k x _ hp hx => ⟨reached_step hp.1 hx.1, holds_behind hp.1 hp.2 hx.1 hx.2⟩
  · exact fun k w command hp halive _ => recalls_respond hp.2 halive w command

/-- The process crashes and starts again, and the run is asked for. -/
def restartedRequests : List RequestsInput :=
  .other (dailyWorld 5 0, .start) :: request (.getRunStatus "run_1_0") (dailyWorld 6 0)

theorem requests_remember_restarted :
    ∃ o ∈ (run step (run step (off true none false) submittedRequests) restartedRequests).outcomes,
      o.command = .getRunStatus "run_1_0" ∧ ∃ response, o.answer = some response ∧
        Recalls "run_1_0" "task" o.command response := by
  obtain ⟨o, ho, hlater, hcommand, hanswer⟩ : ∃ o ∈ (run step (run step (off true none false)
      submittedRequests) restartedRequests).outcomes, 1 ≤ o.number ∧
        o.command = .getRunStatus "run_1_0" ∧ o.answer.isSome = true := by decide +kernel
  obtain ⟨response, hresponse⟩ := Option.isSome_iff_exists.mp hanswer
  refine ⟨o, ho, hcommand, response, hresponse, ?_⟩
  refine requests_remember none false "run_1_0" "task" submittedRequests restartedRequests
    (Meets.and.mpr ⟨by decide +kernel, Meets.of_forall ?_ _⟩) (by decide +kernel) o ho hlater
    response hresponse
  rintro x hx s ⟨w, rfl, _⟩
  simp [submittedRequests, restartedRequests, request] at hx

section
variable {persistent : Bool} {sandboxOverride : Option Bool} {capsule : Bool} {k : Requests}
  {x : RequestsInput} {r : RunId}

/-- The run is gone, and its id will not be drawn again. -/
abbrev Gone (r : RunId) (d : Daemon) : Prop := Bound r (fun _ => True) (fun _ => False) d.core

theorem gone_behind (hd : k.server.daemon.Reached persistent sandboxOverride capsule)
    (h : Gone r k.server.daemon) (hx : k.Clocked x) : Gone r (k.step x).server.daemon := by
  refine (kept_behind (P := fun d => d.Reached persistent sandboxOverride capsule ∧ Gone r d)
    (fun d y hp hy => ⟨hp.1.step hy, ?_⟩) ⟨hd, h⟩ hx).2
  exact bound_step (fun _ _ _ _ => True.intro) (fun _ _ _ hfalse => hfalse) hp.1 hp.2 hy

/-- The client was told that there is no such run. -/
abbrev MissedBy (r : RunId) (o : Upshot DaemonCommand HttpResponse) : Prop :=
  o.command = .getRunStatus r ∧ o.answer.map HttpResponse.status = some 404

theorem gone_of_missed {h : Host} {w : World} (halive : h.daemon.alive = true)
    (hd : h.daemon.Reached persistent sandboxOverride capsule)
    (hissued : Issued h.daemon.engine.ids r)
    (hmissed : (h.respond w (.getRunStatus r)).status = 404) : Gone r h.daemon := by
  have hnone : h.daemon.engine.store.getRun r = none := by
    by_contra hsome
    obtain ⟨run, hrun⟩ := Option.ne_none_iff_exists'.mp hsome
    have hreply : (reply Body.runStatus 404 (h.daemon.engine.getRunStatusData w r)).status =
        404 := hmissed
    rw [getRunStatusData_of_run hrun] at hreply
    cases hreply
  refine ⟨hissued, fun _ _ => True.intro, ?_⟩
  rintro run (hrun | ⟨db, hdb, hrow⟩)
  · cases hrun.symm.trans hnone
  · obtain ⟨run, hrun⟩ := found_of_row hd halive ⟨db, hdb, run, hrow⟩
    cases hrun.symm.trans hnone

/-- Of what has been asked since the id was given out: if it was missed once, the run is gone. -/
structure Misses (persistent : Bool) (sandboxOverride : Option Bool) (capsule : Bool) (r : RunId)
    (asked : Nat) (k : Requests) : Prop extends Sound persistent sandboxOverride capsule k where
  drawn : Issued k.server.daemon.engine.ids r
  gone : (∃ o ∈ k.outcomes, asked ≤ o.number ∧ MissedBy r o) → Gone r k.server.daemon

theorem misses_step {asked : Nat} (h : Misses persistent sandboxOverride capsule r asked k)
    (hx : k.Clocked x) : Misses persistent sandboxOverride capsule r asked (k.step x) := by
  refine ⟨sound_step k x h.toSound hx, issued_behind h.reached h.drawn hx, ?_⟩
  rintro ⟨o, ho, hle, hmissed⟩
  refine gone_behind h.reached ?_ hx
  rcases Service.outcome_cases Host.service ho with hold | hnone |
    ⟨w, ticket, queue, rfl, hqueue, rfl⟩
  · exact h.gone ⟨o, hold, hle, hmissed⟩
  · have hanswer := hmissed.2
    rw [hnone] at hanswer
    cases hanswer
  · obtain ⟨hcommand, hanswer⟩ := hmissed
    have hcommand : ticket.command = .getRunStatus r := hcommand
    have hanswer : some (k.server.respond w ticket.command).status = some 404 := hanswer
    rw [hcommand] at hanswer
    exact gone_of_missed (h.orderly.up_of_queue hqueue) h.reached h.drawn
      (Option.some.inj hanswer)

end

/-- A run is cancelled. A day later a tick takes it away, and the client asks for it. -/
def missedRequests : List RequestsInput :=
  request (.cancelRun "run_1_0") (dailyWorld 2 0) ++
    .other (dailyWorld 100000000 100000000, .tick) ::
      request (.getRunStatus "run_1_0") (dailyWorld 100000001 100000001)

/-- Once a client was told that a run that was given out is not there, nobody is ever told
anything else. -/
theorem requests_forget (persistent : Bool) (sandboxOverride : Option Bool) (capsule : Bool)
    (r : RunId) (xs ys zs : List RequestsInput)
    (h : Meets step Clocked (off persistent sandboxOverride capsule) (xs ++ ys ++ zs)) :
    let k := run step (off persistent sandboxOverride capsule) xs
    let k' := run step k ys
    r ∈ k.outcomes.filterMap Upshot.submitted →
      (∃ o ∈ k'.outcomes, k.asked ≤ o.number ∧ MissedBy r o) →
      ∀ o ∈ (run step k' zs).outcomes, k'.asked ≤ o.number →
        ∀ response, o.answer = some response → Forgets r o.command response := by
  intro k k' hgave hmissed
  obtain ⟨hxys, hzs⟩ := Meets.append.mp h
  obtain ⟨hxs, hys⟩ := Meets.append.mp hxys
  have hk := sound_run hxs
  have hstart : Misses persistent sandboxOverride capsule r k.asked k := by
    refine ⟨hk, hk.issued r hgave, ?_⟩
    rintro ⟨o, ho, hle, _⟩
    exact absurd (hk.orderly.lt_asked ho) (Nat.not_lt.mpr hle)
  have hk' : Misses persistent sandboxOverride capsule r k.asked k' :=
    run_invariant (fun _ _ hk hx => misses_step hk hx) hstart hys
  rw [run_append] at hzs
  refine Service.answered_later (v := Host.service) (Q := Forgets r)
    (P := fun s => s.daemon.Reached persistent sandboxOverride capsule ∧ Gone r s.daemon)
    ?_ ?_ hk'.orderly ⟨hk'.reached, hk'.gone hmissed⟩ hzs
  · exact fun k x _ hp hx => ⟨reached_step hp.1 hx, gone_behind hp.1 hp.2 hx⟩
  · intro s w command hp halive _
    refine forgets_respond ?_ halive w command
    refine Option.eq_none_iff_forall_ne_some.mpr (fun run hrun => ?_)
    exact hp.2.run run (Or.inl hrun)

/-- The next process is asked for its runs. -/
def listedRequests : List RequestsInput :=
  .other (dailyWorld 100000002 0, .start) :: request .listRuns (dailyWorld 100000003 0)

theorem requests_forget_restarted :
    ∃ o ∈ (run step (run step (run step (off true none false) submittedRequests) missedRequests)
        listedRequests).outcomes,
      o.command = .listRuns ∧ ∃ response, o.answer = some response ∧
        Forgets "run_1_0" o.command response := by
  obtain ⟨o, ho, hlater, hcommand, hanswer⟩ : ∃ o ∈ (run step (run step (run step
      (off true none false) submittedRequests) missedRequests) listedRequests).outcomes,
        3 ≤ o.number ∧ o.command = .listRuns ∧ o.answer.isSome = true := by decide +kernel
  obtain ⟨response, hresponse⟩ := Option.isSome_iff_exists.mp hanswer
  refine ⟨o, ho, hcommand, response, hresponse, ?_⟩
  exact requests_forget true none false "run_1_0" submittedRequests missedRequests listedRequests
    (by decide +kernel) (by decide +kernel) (by decide +kernel) o ho hlater response hresponse

end Requests

end ZeptoPM
