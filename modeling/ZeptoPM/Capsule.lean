import ZeptoPM.Paths
import ZeptoPM.Runs

/- The driver of a sandboxed job: it reads the worker's lines, passes some of them
   on to the orchestrator and makes terminal events of its own. `recordedInside_iff` is
   about the paths of the artifacts that it passes on: a path below the guest
   workspace is moved to the host workspace and any other is left as it is, so the
   record's path lies in the host workspace exactly for the events of
   `StaysInside`. -/
namespace ZeptoPM
open Daemon

/-! ## Paths -/

/-- Equality and prefixes of paths are those of their components. -/
abbrev PathBuf.components (p : PathBuf) : List Component := ZeptoPM.components p.toList

abbrev PathBuf.lexical (p : PathBuf) : Lexical := ZeptoPM.lexical p.toList

theorem PathBuf.toList_join (base other : PathBuf) :
    (base.join other).toList = joinText base.toList other.toList := by
  unfold PathBuf.join joinText
  simp only [apply_ite String.toList, String.toList_append, String.toList_eq_nil_iff,
    List.append_assoc]
  rfl

/-- `value[key] = new`, for a value that has the key. -/
def Json.set (v : Json) (key : String) (new : Json) : Json :=
  match v with
  | .obj fields => .obj (fields.map (fun e => if e.1 = key then (key, new) else e))
  | v => v

/-- `value.get(key).and_then(|v| v.as_bool()).unwrap_or(default)`. -/
def Json.boolOr (v : Json) (key : String) (default : Bool) : Bool :=
  match v.get key with
  | some (.bool b) => b
  | _ => default

/-- Where the worker sees its workspace. -/
def guestWorkspacePath (config : Config) (job : Job) : PathBuf :=
  if config.daemon.isolation = "namespace" then "/workspace" else job.workspaceDir

def translateGuestEventPaths (event : Json) (guestWorkspace hostWorkspace : PathBuf) : Json :=
  if guestWorkspace.components = hostWorkspace.components then event
  else
    match (event.get "path").bind Json.asStr with
    | none => event
    | some path =>
      match stripPrefix path.toList guestWorkspace.toList with
      | none => event
      | some relative => event.set "path" (.str (hostWorkspace.join (.ofList relative)))

/-! ## The driver -/

inductive ResourceViolation where
  | wallClock | memory | maxPids

structure CapsuleReport where
  initError : Option String
  killedBy : Option ResourceViolation
  exitSignal : Option Int
  exitCode : Option Int

def capsuleFailureMessage (report : CapsuleReport) : String :=
  match report.initError, report.killedBy, report.exitSignal, report.exitCode with
  | some initErr, _, _, _ => "capsule init failed: " ++ initErr
  | none, some .wallClock, _, _ => "capsule killed by wall clock timeout"
  | none, some .memory, _, _ => "capsule killed by memory limit"
  | none, some .maxPids, _, _ => "capsule killed by process limit"
  | none, none, some signal, _ => "worker exited by signal " ++ toString signal
  | none, none, none, some code => "worker exited with code " ++ toString code
  | none, none, none, none => "worker exited unexpectedly"

def jobFailedEvent (jobId error : String) (retryable : Bool) : Json :=
  .obj [("type", .str "job_failed"), ("job_id", .str jobId), ("error", .str error),
    ("retryable", .bool retryable)]

def capsuleFailureEvent (jobId : String) (report : Option CapsuleReport) (fallback : String) : Json :=
  jobFailedEvent jobId ((report.map capsuleFailureMessage).getD fallback) true

/-- What becomes of the steps before the worker runs. -/
inductive CapsuleStart where
  | createFailed (error : String)
  | workspaceFailed (error : String)
  | jobSpecFailed (error : String)
  | spawnFailed (error : String)
  | spawned

inductive CapsuleInput where
  /-- A line of the worker's output, `none` if it is not JSON. -/
  | line (event : Option Json)
  /-- A message for the worker: sandboxed workers take none. -/
  | message
  /-- `Stop`, or the command channel is closed. -/
  | stop
  /-- The end of the worker's output, and the report on the capsule if there is one. -/
  | endOfOutput (report : Option CapsuleReport)
  | readError (error : String)

structure CapsuleDriver where
  jobId : JobId
  guestWorkspace : PathBuf
  hostWorkspace : PathBuf
  running : Bool
  /-- The events sent to the orchestrator. -/
  sent : List Json

namespace CapsuleDriver

def send (c : CapsuleDriver) (event : Json) : CapsuleDriver := { c with sent := c.sent ++ [event] }

/-- Leaves the loop. -/
def finish (c : CapsuleDriver) : CapsuleDriver := { c with running := false }

/-- `spawn_capsule_job`, up to its loop. -/
def spawnCapsuleJob (config : Config) (job : Job) (start : CapsuleStart) : CapsuleDriver :=
  let c : CapsuleDriver :=
    { jobId := job.jobId
      guestWorkspace := guestWorkspacePath config job
      hostWorkspace := job.workspaceDir
      running := true
      sent := [] }
  let failed := fun error => (c.send (jobFailedEvent job.jobId error true)).finish
  match start with
  | .createFailed e => failed ("capsule creation failed: " ++ e)
  | .workspaceFailed e => failed ("failed to create workspace: " ++ e)
  | .jobSpecFailed e => failed ("failed to write job spec: " ++ e)
  | .spawnFailed e => failed ("capsule spawn failed: " ++ e)
  | .spawned => c

/-- One line that is JSON. -/
def handleLine (c : CapsuleDriver) (event : Json) : CapsuleDriver :=
  match event.strOr "type" "" with
  | "heartbeat" => c.send event
  | "progress" => c.send event
  | "artifact_produced" =>
    c.send (translateGuestEventPaths event c.guestWorkspace c.hostWorkspace)
  | "job_completed" =>
    (c.send (.obj [("type", .str "job_completed"), ("job_id", .str c.jobId),
      ("output_artifact_ids", (event.get "output_artifact_ids").getD (.arr []))])).finish
  | "job_failed" =>
    (c.send (jobFailedEvent c.jobId (event.strOr "error" "unknown error")
      (event.boolOr "retryable" false))).finish
  | _ => c

def step (c : CapsuleDriver) (i : CapsuleInput) : CapsuleDriver :=
  if c.running then
    match i with
    | .line (some event) => c.handleLine event
    | .line none => c
    | .message => c
    -- a worker that is stopped reports nothing any more
    | .stop => c.finish
    | .endOfOutput report =>
      (c.send (capsuleFailureEvent c.jobId report "worker exited unexpectedly (pipe EOF)")).finish
    | .readError e => (c.send (jobFailedEvent c.jobId ("pipe read error: " ++ e) true)).finish
  else c

/-- The driver's job and workspaces never change. -/
structure Same (c c' : CapsuleDriver) : Prop where
  jobId : c'.jobId = c.jobId
  guestWorkspace : c'.guestWorkspace = c.guestWorkspace
  hostWorkspace : c'.hostWorkspace = c.hostWorkspace

theorem Same.trans {a b c : CapsuleDriver} (h : Same a b) (h' : Same b c) : Same a c :=
  ⟨h'.1.trans h.1, h'.2.trans h.2, h'.3.trans h.3⟩

theorem same_handleLine (c : CapsuleDriver) (event : Json) : Same c (c.handleLine event) := by
  unfold handleLine
  split <;> exact ⟨rfl, rfl, rfl⟩

theorem same_step (c : CapsuleDriver) (i : CapsuleInput) : Same c (c.step i) := by
  unfold step
  split
  · split
    · exact same_handleLine ..
    all_goals exact ⟨rfl, rfl, rfl⟩
  · exact ⟨rfl, rfl, rfl⟩

theorem same_run (c : CapsuleDriver) (is : List CapsuleInput) : Same c (run step c is) := by
  induction is generalizing c with
  | nil => exact ⟨rfl, rfl, rfl⟩
  | cons i is ih => exact (same_step c i).trans (ih _)

theorem spawnCapsuleJob_same (config : Config) (job : Job) (start : CapsuleStart) :
    (spawnCapsuleJob config job start).jobId = job.jobId ∧
      (spawnCapsuleJob config job start).guestWorkspace = guestWorkspacePath config job ∧
      (spawnCapsuleJob config job start).hostWorkspace = job.workspaceDir := by
  cases start <;> exact ⟨rfl, rfl, rfl⟩

/-- What a running driver makes of a line that announces an artifact. -/
theorem step_artifactProduced {c : CapsuleDriver} {event : Json} (hrun : c.running = true)
    (htype : event.strOr "type" "" = "artifact_produced") :
    (c.step (.line (some event))).sent =
      c.sent ++ [translateGuestEventPaths event c.guestWorkspace c.hostWorkspace] := by
  unfold step handleLine
  rw [if_pos hrun]
  simp only [htype]
  rfl

end CapsuleDriver

/-! ## The path that is recorded -/

/-- The path in the record of the artifact that the daemon makes of an event. -/
def recordedPath (w : World) (d : Daemon) (event : Json) : Option PathBuf :=
  match d.handleEvent w event with
  | .error _ => none
  | .ok d' => (d'.engine.store.getArtifact (event.strOr "artifact_id" "")).map (·.path)

/-- The record stays in the host workspace, and a path below the guest workspace is
recorded as the same path below the host workspace. -/
structure RecordedInside (guestWorkspace hostWorkspace : PathBuf) (event : Json)
    (recorded : PathBuf) : Prop where
  inside : Lexical.Under hostWorkspace.lexical recorded.lexical
  moved : ∀ rel : PathBuf, rel.toList.head? ≠ some '/' → .parentDir ∉ rel.components →
    (event.get "path").bind Json.asStr = some (guestWorkspace.join rel) →
    steps recorded.toList = steps (hostWorkspace.join rel).toList

/-- The event's path lies in the host workspace, or it begins with a guest workspace that
is another path and what follows does not lead out of a directory without leading back. -/
def StaysInside (guestWorkspace hostWorkspace : PathBuf) (event : Json) : Prop :=
  let path : PathBuf := event.strOr "path" ""
  if guestWorkspace.components ≠ hostWorkspace.components ∧
      guestWorkspace.components <+: path.components then
    Lexical.Returns hostWorkspace.lexical
      (.ofComponents (path.components.drop guestWorkspace.components.length))
  else Lexical.Under hostWorkspace.lexical path.lexical

instance (guestWorkspace hostWorkspace : PathBuf) (event : Json) :
    Decidable (StaysInside guestWorkspace hostWorkspace event) := by
  unfold StaysInside
  infer_instance

section
variable {w : World} {d : Daemon} {event : Json} {guest host : PathBuf}

theorem Json.lookup_map_set (fields : List (String × Json)) (key k : String) (new : Json) :
    (fields.map (fun e => if e.1 = key then (key, new) else e)).lookup k =
      if k = key then (fields.lookup k).map (fun _ => new) else fields.lookup k := by
  induction fields with
  | nil => simp
  | cons e fields ih =>
    obtain ⟨k', v⟩ := e
    rw [List.map_cons]
    by_cases hk' : k' = key
    · subst hk'
      by_cases hk : k = k'
      · subst hk
        simp
      · have hb : (k == k') = false := by simpa using hk
        simp only [if_true, List.lookup_cons, hb, ih, if_neg hk]
    · simp only [if_neg hk', List.lookup_cons, ih]
      by_cases hk : k = key
      · subst hk
        have hb : (k == k') = false := by simpa using Ne.symm hk'
        simp [hb]
      · cases hb : k == k' <;> simp [hk]

theorem Json.get_set (v : Json) (key k : String) (new : Json) :
    (v.set key new).get k = if k = key then (v.get k).map (fun _ => new) else v.get k := by
  cases v with
  | obj fields => exact Json.lookup_map_set ..
  | _ => simp [Json.set, Json.get]

/-- The record of an announced artifact has the event's own path. -/
theorem recordedPath_eq (w : World) (d : Daemon)
    (htype : event.strOr "type" "" = "artifact_produced") :
    recordedPath w d event = some (event.strOr "path" "") := by
  unfold recordedPath handleEvent
  simp only [htype]
  show (((d.artifactProduced w event).engine.store.getArtifact _)).map (·.path) = _
  show (((d.engine.store.createArtifact (d.announcedArtifact w event)).getArtifact _)).map _ = _
  unfold RunStore.createArtifact RunStore.getArtifact
  rw [Table.get_put]
  exact congrArg (Option.map _) (if_pos rfl)

/-- Only the path of an event is translated. -/
theorem translate_strOr {key : String} (hkey : key ≠ "path") (default : String) :
    (translateGuestEventPaths event guest host).strOr key default = event.strOr key default := by
  unfold translateGuestEventPaths
  split
  · rfl
  · split
    · rfl
    · split
      · rfl
      · unfold Json.strOr
        rw [Json.get_set, if_neg hkey]

/-- The translated path. -/
theorem translate_path (event : Json) (guest host : PathBuf) :
    (translateGuestEventPaths event guest host).strOr "path" "" =
      if guest.components = host.components then event.strOr "path" ""
      else
        match (event.get "path").bind Json.asStr with
        | none => ""
        | some path =>
          match stripPrefix path.toList guest.toList with
          | none => path
          | some relative => host.join (.ofList relative) := by
  unfold translateGuestEventPaths
  split
  · rfl
  · unfold Json.strOr
    cases hpath : (event.get "path").bind Json.asStr with
    | none => rw [hpath]; rfl
    | some path =>
      dsimp only
      split
      · rw [hpath]; rfl
      · rename_i relative _
        obtain ⟨v, hv, _⟩ := Option.bind_eq_some_iff.mp hpath
        rw [Json.get_set, if_pos rfl, hv]
        rfl

/-- The guest workspace has components where it is not the host workspace. -/
theorem guestWorkspacePath_components (config : Config) (job : Job)
    (h : (guestWorkspacePath config job).components ≠ PathBuf.components job.workspaceDir) :
    (guestWorkspacePath config job).components ≠ [] := by
  unfold guestWorkspacePath at h ⊢
  split
  · decide
  · rename_i hiso
    rw [if_neg hiso] at h
    exact absurd rfl h

/-- A path below a guest workspace that is moved is entered from the host workspace. -/
theorem lexical_translated {path relative : List Char} (hguest : guest.components ≠ [])
    (h : stripPrefix path guest.toList = some relative) :
    (host.join (.ofList relative)).lexical =
      host.lexical.enter (.ofComponents ((components path).drop guest.components.length)) := by
  obtain ⟨hrel, hcomponents⟩ := components_stripPrefix hguest h
  rw [PathBuf.lexical, PathBuf.toList_join, String.toList_ofList, lexical_join _ hrel]
  congr 2
  have hdrop := congrArg (List.drop guest.components.length) hcomponents
  rw [List.drop_left'] at hdrop
  · exact hdrop.symm
  · rfl

/-- The translated path stays in the host workspace exactly for the events that are said to. -/
theorem under_translate_iff (hguest : guest.components ≠ host.components → guest.components ≠ [])
    (event : Json) :
    Lexical.Under host.lexical
        (PathBuf.lexical ((translateGuestEventPaths event guest host).strOr "path" "")) ↔
      StaysInside guest host event := by
  unfold StaysInside
  rw [translate_path]
  by_cases heq : guest.components = host.components
  · rw [if_pos heq, if_neg (fun h => h.1 heq)]
  · rw [if_neg heq]
    have hpath : event.strOr "path" "" = ((event.get "path").bind Json.asStr).getD "" := rfl
    have hne := hguest heq
    cases hstr : (event.get "path").bind Json.asStr with
    | none =>
      rw [hpath, hstr, Option.getD_none, if_neg]
      intro h
      obtain ⟨_, hpre⟩ := h
      exact hne (List.prefix_nil.mp hpre)
    | some path =>
      rw [hpath, hstr, Option.getD_some]
      dsimp only
      cases hstrip : stripPrefix path.toList guest.toList with
      | none =>
        have hno : ¬ guest.components <+: components path.toList := by
          intro hpre
          unfold stripPrefix at hstrip
          rw [if_pos hpre] at hstrip
          cases hstrip
        rw [if_neg (fun h => hno h.2)]
      | some relative =>
        have hpre : guest.components <+: components path.toList :=
          ⟨_, (components_stripPrefix hne hstrip).2.symm⟩
        rw [if_pos ⟨heq, hpre⟩, lexical_translated hne hstrip, Lexical.under_enter_iff]

/-- A path below the guest workspace is moved to the host workspace. -/
theorem steps_translate (hguest : guest.components ≠ host.components → guest.components ≠ [])
    {rel : PathBuf} (hrel : rel.toList.head? ≠ some '/')
    (hpath : (event.get "path").bind Json.asStr = some (guest.join rel)) :
    steps (String.toList ((translateGuestEventPaths event guest host).strOr "path" "")) =
      steps (host.join rel).toList := by
  rw [translate_path, PathBuf.toList_join, steps_join _ hrel]
  by_cases heq : guest.components = host.components
  · have hstr : event.strOr "path" "" = guest.join rel := by
      unfold Json.strOr
      rw [hpath]
      rfl
    rw [if_pos heq, hstr, PathBuf.toList_join, steps_join _ hrel]
    unfold steps
    rw [show components guest.toList = components host.toList from heq]
  · have hne := hguest heq
    have hbase : guest.toList ≠ [] := by
      intro h
      exact hne (by rw [PathBuf.components, h]; rfl)
    have hcomponents : components (guest.join rel).toList = guest.components ++ body rel.toList := by
      rw [PathBuf.toList_join, components_join hbase hrel]
    rw [if_neg heq, hpath]
    dsimp only
    cases hstrip : stripPrefix (guest.join rel).toList guest.toList with
    | none =>
      unfold stripPrefix at hstrip
      rw [if_pos ⟨_, hcomponents.symm⟩] at hstrip
      cases hstrip
    | some relative =>
      obtain ⟨hrelative, hback⟩ := components_stripPrefix hne hstrip
      rw [hcomponents, List.append_cancel_left_eq] at hback
      rw [PathBuf.toList_join, String.toList_ofList, steps_join _ hrelative, hback]

end

/-- The driver of a sandboxed job passes on every artifact its worker announces. What the
daemon records of it is confined to the job's host workspace exactly if the path stays
inside. -/
theorem recordedInside_iff (config : Config) (job : Job) (start : CapsuleStart)
    (is : List CapsuleInput) (event : Json) (w : World) (d : Daemon)
    (hrun : (run CapsuleDriver.step (.spawnCapsuleJob config job start) is).running = true)
    (htype : event.strOr "type" "" = "artifact_produced") :
    let c := run CapsuleDriver.step (.spawnCapsuleJob config job start) is
    ∃ forwarded, (c.step (.line (some event))).sent = c.sent ++ [forwarded] ∧
      ∃ recorded, recordedPath w d forwarded = some recorded ∧
        (RecordedInside (guestWorkspacePath config job) job.workspaceDir event recorded ↔
          StaysInside (guestWorkspacePath config job) job.workspaceDir event) := by
  intro c
  have hsame : CapsuleDriver.Same _ c := CapsuleDriver.same_run _ is
  obtain ⟨_, hguest, hhost⟩ := CapsuleDriver.spawnCapsuleJob_same config job start
  have hsent := CapsuleDriver.step_artifactProduced hrun htype
  rw [hsame.guestWorkspace, hsame.hostWorkspace, hguest, hhost] at hsent
  have hcomponents := guestWorkspacePath_components config job
  refine ⟨_, hsent, _, recordedPath_eq w d ?_, ?_⟩
  · rw [translate_strOr (by decide), htype]
  · rw [← under_translate_iff hcomponents event]
    refine ⟨?_, ?_⟩
    · intro h
      exact h.inside
    · intro h
      exact ⟨h, fun rel hrel _ hpath => steps_translate hcomponents hrel hpath⟩

/-! ## Paths that lead out -/

/-- A job that runs in a namespace of its own. -/
def namespaceConfig : Config :=
  { plainConfig with daemon := { plainConfig.daemon with isolation := "namespace" } }

def sandboxedJob : Job :=
  { (plannerJob World.bare "run_1" "job_1" "write").start World.bare with
    workspaceDir := "/tmp/run/job" }

/-- The worker announces an artifact at the path. -/
def produced (path : String) : Json :=
  .obj [("type", .str "artifact_produced"), ("job_id", .str "job_1"), ("artifact_id", .str "art_1"),
    ("kind", .str "markdown"), ("path", .str path), ("summary", .str "")]

/-- A path outside the guest workspace is recorded as it is. -/
theorem not_recordedInside_outside :
    let c := CapsuleDriver.spawnCapsuleJob namespaceConfig sandboxedJob .spawned
    (c.step (.line (some (produced "/etc/passwd")))).sent = [produced "/etc/passwd"] ∧
      recordedPath World.bare (Daemon.off true none true) (produced "/etc/passwd") =
        some "/etc/passwd" ∧
      ¬ RecordedInside (guestWorkspacePath namespaceConfig sandboxedJob) sandboxedJob.workspaceDir
        (produced "/etc/passwd") "/etc/passwd" := by
  refine ⟨by rfl, by rfl, fun h => ?_⟩
  exact absurd h.inside (by decide)

/-- A path below the guest workspace that does not lead out is confined. -/
theorem recordedInside_iff_output :
    let c := CapsuleDriver.spawnCapsuleJob namespaceConfig sandboxedJob .spawned
    ∃ forwarded, (c.step (.line (some (produced "/workspace/out/../output.md")))).sent =
        c.sent ++ [forwarded] ∧
      ∃ recorded, recordedPath World.bare (Daemon.off true none true) forwarded = some recorded ∧
        RecordedInside (guestWorkspacePath namespaceConfig sandboxedJob) sandboxedJob.workspaceDir
          (produced "/workspace/out/../output.md") recorded := by
  intro c
  obtain ⟨forwarded, hsent, recorded, hrecorded, hiff⟩ :=
    recordedInside_iff namespaceConfig sandboxedJob
    .spawned [] (produced "/workspace/out/../output.md") World.bare (Daemon.off true none true)
    rfl rfl
  exact ⟨forwarded, hsent, recorded, hrecorded, hiff.mpr (by decide)⟩

end ZeptoPM
