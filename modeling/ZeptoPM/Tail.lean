import Mathlib.Data.List.Destutter
import ZeptoPM.Pipeline
import ZeptoPM.Queries

/- `zeptopm run status --tail`: a client that polls the status of a run and prints what has
   changed. It remembers the last status it saw of every job, so that of each job it prints
   the statuses of the polls with repetitions left out (`tail_prints`), and the daemon may
   do what it likes between two polls, or not be there for one (`tail_follows`). -/
namespace ZeptoPM

/-! ## Destuttering -/

section
variable {α : Type} [DecidableEq α]

/-- What a list with one more element destutters to. -/
theorem destutter_concat (a : α) (l : List α) (b : α) :
    (l ++ [b]).destutter' (· ≠ ·) a =
      l.destutter' (· ≠ ·) a ++ if l.getLastD a = b then [] else [b] := by
  induction l generalizing a with
  | nil =>
    by_cases hab : a = b
    · subst hab
      simp
    · simp [hab]
  | cons c l ih =>
    rw [List.cons_append, List.getLastD_cons]
    by_cases hac : a = c
    · subst hac
      rw [List.destutter'_cons_neg _ (by simp), List.destutter'_cons_neg _ (by simp), ih]
    · rw [List.destutter'_cons_pos _ hac, List.destutter'_cons_pos _ hac, ih, List.cons_append]

/-- The elements that differ from the one before, the first one from `a`. -/
def changes (a : α) (l : List α) : List α := (l.destutter' (· ≠ ·) a).tail

theorem changes_concat (a : α) (l : List α) (b : α) :
    changes a (l ++ [b]) = changes a l ++ if l.getLastD a = b then [] else [b] := by
  unfold changes
  rw [destutter_concat, List.tail_append_of_ne_nil (List.destutter'_ne_nil l (· ≠ ·))]

end

section
variable {α β : Type}

/-- The list up to the first element with the property, that element included. -/
def upTo (p : α → Bool) : List α → List α
  | [] => []
  | a :: l => if p a then [a] else a :: upTo p l

theorem upTo_map (p : β → Bool) (f : α → β) (l : List α) :
    upTo p (l.map f) = (upTo (fun a => p (f a)) l).map f := by
  induction l with
  | nil => rfl
  | cons a l ih =>
    rw [List.map_cons, upTo, upTo]
    split
    · rfl
    · rw [ih, List.map_cons]

end

/-! ## The client -/

/-- What a poll comes to. -/
inductive Poll where
  | failed (error : String)
  /-- The body, where it is JSON. -/
  | body (json : Option Json)

structure TailLine where
  jobId : String
  status : String
  text : String
  deriving DecidableEq, Repr

/-- What is printed of a job's new status. -/
def tailText (now jobId role status : String) (job : Json) : String :=
  let head := "  " ++ now ++ " [" ++ role ++ "] " ++ jobId
  match status with
  | "Running" => head ++ " starting..."
  | "Completed" => head ++ " completed"
  | "Failed" => head ++ " FAILED: " ++ job.strOr "error" "unknown"
  | "Ready" => head ++ " ready (queued)"
  | _ => head ++ " -> " ++ status

structure Tail where
  seenStatuses : HashMap String String
  lastRunStatus : String
  printed : List TailLine
  errors : List String
  /-- The status with which the loop ended. -/
  ended : Option String

namespace Tail

def new : Tail := ⟨.empty, "", [], [], none⟩

/-- One entry of `jobs`. -/
def job (now : String) (s : Tail) (job : Json) : Tail :=
  let jid := job.strOr "job_id" "?"
  let st := job.strOr "status" "?"
  if (s.seenStatuses.get jid).getD "" = st then s
  else
    { s with
      printed := s.printed ++ [⟨jid, st, tailText now jid (job.strOr "role" "?") st job⟩]
      seenStatuses := s.seenStatuses.insert jid st }

def isFinal (status : String) : Bool :=
  status == "Completed" || status == "Failed" || status == "Cancelled"

/-- One response. -/
def response (now : String) (s : Tail) (resp : Json) : Tail :=
  let runStatus := resp.strOr "status" "?"
  let s := (((resp.get "jobs").bind Json.asArray).getD []).foldl (job now) s
  if runStatus = s.lastRunStatus then s
  else if isFinal runStatus then { s with ended := some runStatus }
  else { s with lastRunStatus := runStatus }

/-- One round of the loop, at a time that prints as `now`. -/
def step (s : Tail) (x : String × Poll) : Tail :=
  if s.ended.isSome then s
  else
    match x.2 with
    | .failed e => { s with errors := s.errors ++ [e] }
    | .body none => s
    | .body (some resp) => s.response x.1 resp

/-- The statuses printed of a job. -/
def statusesOf (s : Tail) (jid : String) : List String :=
  (s.printed.filter (·.jobId == jid)).map (·.status)

end Tail

/-! ## What is printed -/

/-- The statuses of the job in a list of entries. -/
def statusesIn (jid : String) (jobs : List Json) : List String :=
  (jobs.filter (fun job => job.strOr "job_id" "?" == jid)).map (fun job => job.strOr "status" "?")

/-- The statuses of the job that a poll tells. -/
def Poll.statuses (jid : String) : Poll → List String
  | .body (some resp) => statusesIn jid (((resp.get "jobs").bind Json.asArray).getD [])
  | _ => []

/-- The status of the run, if a poll tells that it is over. -/
def Poll.final : Poll → Option String
  | .body (some resp) => (some (resp.strOr "status" "?")).filter Tail.isFinal
  | _ => none

/-- What the client knows after some statuses of each job. -/
structure Tail.Shows (s : Tail) (statuses : String → List String) : Prop where
  seen : ∀ jid, (s.seenStatuses.get jid).getD "" = (statuses jid).getLastD ""
  printed : ∀ jid, s.statusesOf jid = changes "" (statuses jid)

section
variable {s : Tail} {statuses : String → List String} {now : String}

theorem Tail.Shows.job (h : s.Shows statuses) (now : String) (job : Json) :
    (s.job now job).Shows (fun jid => statuses jid ++ statusesIn jid [job]) := by
  have hnone : ∀ jid, (job.strOr "job_id" "?" == jid) = false → statusesIn jid [job] = [] := by
    intro jid hjid
    unfold statusesIn
    rw [List.filter_cons_of_neg (by simp [hjid])]
    rfl
  have hsome : statusesIn (job.strOr "job_id" "?") [job] = [job.strOr "status" "?"] := by
    unfold statusesIn
    rw [List.filter_cons_of_pos (by simp)]
    rfl
  have hlast : ∀ (l : List String) b, (l ++ [b]).getLastD "" = b := by
    intro l b
    rw [List.getLastD_eq_getLast?, List.getLast?_concat]
    rfl
  unfold Tail.job
  dsimp only
  split
  · rename_i hsame
    refine ⟨fun jid => ?_, fun jid => ?_⟩ <;>
      by_cases hjid : job.strOr "job_id" "?" = jid
    · subst hjid
      rw [hsome, hlast]
      exact hsame
    · rw [hnone jid (beq_false_of_ne hjid), List.append_nil]
      exact h.seen jid
    · subst hjid
      rw [hsome, changes_concat, ← h.seen, if_pos hsame, List.append_nil]
      exact h.printed _
    · rw [hnone jid (beq_false_of_ne hjid), List.append_nil]
      exact h.printed jid
  · rename_i hnew
    refine ⟨fun jid => ?_, fun jid => ?_⟩
    · show ((s.seenStatuses.insert _ _).get jid).getD "" = _
      rw [HashMap.get_insert]
      split
      · rename_i hjid
        subst hjid
        rw [hsome, hlast]
        rfl
      · rename_i hjid
        rw [hnone jid (beq_false_of_ne (Ne.symm hjid)), List.append_nil]
        exact h.seen jid
    · have hprinted := h.printed jid
      unfold Tail.statusesOf at hprinted ⊢
      rw [List.filter_append, List.map_append, hprinted]
      by_cases hjid : job.strOr "job_id" "?" = jid
      · subst hjid
        rw [List.filter_cons_of_pos (by simp), hsome, changes_concat, ← h.seen, if_neg hnew]
        rfl
      · rw [List.filter_cons_of_neg (by simpa using hjid), hnone jid (beq_false_of_ne hjid),
          List.append_nil]
        exact List.append_nil _

theorem Tail.Shows.jobs (h : s.Shows statuses) (now : String) (jobs : List Json) :
    (jobs.foldl (Tail.job now) s).Shows (fun jid => statuses jid ++ statusesIn jid jobs) := by
  induction jobs generalizing s statuses with
  | nil =>
    have hnil : ∀ jid, statuses jid ++ statusesIn jid [] = statuses jid :=
      fun jid => List.append_nil _
    simp only [hnil]
    exact h
  | cons job jobs ih =>
    have hcons : ∀ jid, statuses jid ++ statusesIn jid (job :: jobs) =
        (statuses jid ++ statusesIn jid [job]) ++ statusesIn jid jobs := by
      intro jid
      rw [List.append_assoc]
      unfold statusesIn
      rw [← List.map_append, ← List.filter_append]
      rfl
    simp only [hcons]
    exact ih (h.job now job)

/-- A poll that is followed, in a loop that goes on. -/
theorem Tail.Shows.step (h : s.Shows statuses) (hended : s.ended = none)
    (hlast : Tail.isFinal s.lastRunStatus = false) (x : String × Poll) :
    (s.step x).Shows (fun jid => statuses jid ++ x.2.statuses jid) ∧
      (s.step x).ended = x.2.final ∧
      (x.2.final = none → Tail.isFinal (s.step x).lastRunStatus = false) := by
  obtain ⟨now, poll⟩ := x
  have hnil : ∀ jid, statuses jid ++ [] = statuses jid := fun jid => List.append_nil _
  unfold Tail.step
  rw [if_neg (by rw [hended]; exact Bool.false_ne_true)]
  cases poll with
  | failed e =>
    refine ⟨?_, hended, fun _ => hlast⟩
    simp only [Poll.statuses, hnil]
    exact ⟨h.seen, h.printed⟩
  | body json =>
    cases json with
    | none =>
      refine ⟨?_, hended, fun _ => hlast⟩
      simp only [Poll.statuses, hnil]
      exact h
    | some resp =>
      have hjobs := h.jobs now (((resp.get "jobs").bind Json.asArray).getD [])
      have hkept : ∀ jobs : List Json, ∀ s : Tail,
          (jobs.foldl (Tail.job now) s).ended = s.ended ∧
            (jobs.foldl (Tail.job now) s).lastRunStatus = s.lastRunStatus := by
        intro jobs
        induction jobs with
        | nil => exact fun s => ⟨rfl, rfl⟩
        | cons job jobs ih =>
          intro s
          have hjob : (s.job now job).ended = s.ended ∧
              (s.job now job).lastRunStatus = s.lastRunStatus := by
            unfold Tail.job
            dsimp only
            split <;> exact ⟨rfl, rfl⟩
          exact ⟨(ih _).1.trans hjob.1, (ih _).2.trans hjob.2⟩
      obtain ⟨hended', hlast'⟩ := hkept (((resp.get "jobs").bind Json.asArray).getD []) s
      show (s.response now resp).Shows _ ∧ _
      simp only [Poll.statuses, Poll.final]
      unfold Tail.response
      dsimp only
      rw [hlast']
      by_cases hfinal : Tail.isFinal (resp.strOr "status" "?") = true
      · rw [if_neg (by rintro heq; rw [heq, hlast] at hfinal; cases hfinal), if_pos hfinal,
          Option.filter_some_pos hfinal]
        exact ⟨⟨hjobs.seen, hjobs.printed⟩, rfl, nofun⟩
      · rw [Option.filter_some_neg (Bool.eq_false_iff.mpr hfinal), if_neg hfinal]
        split
        · exact ⟨hjobs, hended'.trans hended, fun _ => hlast'.symm ▸ hlast⟩
        · exact ⟨⟨hjobs.seen, hjobs.printed⟩, hended'.trans hended,
            fun _ => Bool.eq_false_iff.mpr hfinal⟩

theorem Tail.run_ended (polls : List (String × Poll)) (h : s.ended.isSome = true) :
    run Tail.step s polls = s := by
  induction polls with
  | nil => rfl
  | cons x polls ih =>
    have hstep : s.step x = s := by
      unfold Tail.step
      rw [if_pos h]
    rw [run_cons, hstep]
    exact ih

theorem Tail.shows_run (polls : List (String × Poll)) :
    ∀ {s : Tail} {statuses : String → List String},
    s.Shows statuses → s.ended = none → Tail.isFinal s.lastRunStatus = false →
    (run Tail.step s polls).Shows
      (fun jid => statuses jid ++
        (upTo (fun x => x.2.final.isSome) polls).flatMap (fun x => x.2.statuses jid)) ∧
    (run Tail.step s polls).ended = polls.findSome? (fun x => x.2.final) := by
  induction polls with
  | nil =>
    intro s statuses h hended _
    refine ⟨?_, hended⟩
    simp only [upTo, List.flatMap_nil, List.append_nil]
    exact h
  | cons x polls ih =>
    intro s statuses h hended hlast
    obtain ⟨hstep, hended', hlast'⟩ := h.step hended hlast x
    rw [run_cons, List.findSome?_cons]
    cases hfinal : x.2.final with
    | some status =>
      rw [Tail.run_ended polls (by rw [hended', hfinal]; rfl), hended', hfinal]
      refine ⟨?_, rfl⟩
      simp only [upTo, hfinal, Option.isSome_some, if_true, List.flatMap_cons, List.flatMap_nil,
        List.append_nil]
      exact hstep
    | none =>
      obtain ⟨hshows, hfound⟩ := ih hstep (hended'.trans hfinal) (hlast' hfinal)
      refine ⟨?_, hfound⟩
      simp only [upTo, hfinal, Option.isSome_none, Bool.false_eq_true, if_false,
        List.flatMap_cons, ← List.append_assoc]
      exact hshows

end

/-- Of every job the client prints the statuses that the polls tell, each where it differs
from the one before, up to the first poll with which the run is over; and it ends there. -/
theorem tail_prints (polls : List (String × Poll)) (jid : String) :
    (run Tail.step Tail.new polls).statusesOf jid =
      changes "" ((upTo (fun x => x.2.final.isSome) polls).flatMap (fun x => x.2.statuses jid)) ∧
    (run Tail.step Tail.new polls).ended = polls.findSome? (fun x => x.2.final) := by
  have hnew : Tail.new.Shows (fun _ => []) := ⟨fun _ => rfl, fun _ => rfl⟩
  obtain ⟨hshows, hended⟩ := Tail.shows_run polls hnew rfl (by decide)
  exact ⟨hshows.printed jid, hended⟩

/-! ## The daemon at the other end -/

def JobInfo.json (info : JobInfo) : Json :=
  .obj [("job_id", .str info.jobId), ("role", .str info.role), ("status", .str info.status),
    ("instruction", .str info.instruction), ("attempt", .num info.attempt),
    ("revision_round", .num info.revisionRound), ("error", (info.error.map .str).getD .null),
    ("last_heartbeat_secs_ago",
      (info.lastHeartbeatSecsAgo.map (fun n => Json.num (n : Nat))).getD .null)]

def RunStatusData.json (data : RunStatusData) : Json :=
  .obj [("run_id", .str data.runId), ("task", .str data.task), ("status", .str data.status),
    ("jobs", .arr (data.jobs.map JobInfo.json))]

/-- The body of `get_run_status`, by what the daemon replies. -/
def runStatusBody : Except String RunStatusData → Json
  | .ok data => data.json
  | .error e => .obj [("error", .str e)]

/-- What a poll finds: the engine as it is, or an error of its own. -/
abbrev Sighting := Except String (World × OrchestratorEngine)

namespace Sighting
variable (runId : RunId)

def poll : Sighting → Poll
  | .error e => .failed e
  | .ok (w, e) => .body (some (runStatusBody (e.getRunStatusData w runId)))

/-- The status that the job has, as one of the run. -/
def statusOf (jobId : JobId) : Sighting → Option String
  | .error _ => none
  | .ok (_, e) => (e.store.getRun runId).bind fun _ =>
    ((e.store.getJob jobId).filter (fun job => job.runId == runId)).map (·.status.text)

/-- The status of the run, if it is over. -/
def outcome : Sighting → Option RunStatus
  | .error _ => none
  | .ok (_, e) => ((e.store.getRun runId).map (·.status)).filter
    (fun st => st == .completed || st == .failed || st == .cancelled)

end Sighting

section
variable {w : World} {e : OrchestratorEngine} {runId : RunId} {jobId : JobId}

/-- A job is listed once, under its own run. -/
theorem filter_listRunJobs : (e.store.listRunJobs w runId).filter (fun job => job.jobId == jobId) =
    ((e.store.getJob jobId).filter (fun job => job.runId == runId)).toList := by
  have hnodup : ((e.store.listRunJobs w runId).filter (fun job => job.jobId == jobId)).Nodup :=
    (List.Nodup.of_map _ (RunStore.listRunJobs_nodup_ids w e.store runId)).filter _
  have hmem : ∀ job, job ∈ (e.store.listRunJobs w runId).filter (fun job => job.jobId == jobId) ↔
      (e.store.getJob jobId).filter (fun job => job.runId == runId) = some job := by
    intro job
    rw [List.mem_filter, RunStore.mem_listRunJobs, Option.filter_eq_some_iff, beq_iff_eq,
      beq_iff_eq]
    refine ⟨fun h => ⟨h.2 ▸ h.1.1, h.1.2⟩, fun h => ?_⟩
    have hid := RunStore.jobId_of_getJob h.1
    exact ⟨⟨hid.symm ▸ h.1, h.2⟩, hid⟩
  cases hopt : (e.store.getJob jobId).filter (fun job => job.runId == runId) with
  | none =>
    refine List.eq_nil_iff_forall_not_mem.mpr fun job hjob => ?_
    have hsome := (hmem job).mp hjob
    rw [hopt] at hsome
    cases hsome
  | some job =>
    refine List.perm_singleton.mp
      ((List.perm_ext_iff_of_nodup hnodup (List.nodup_singleton job)).mpr ?_)
    intro job'
    rw [hmem, hopt, List.mem_singleton, Option.some_inj]
    exact eq_comm

theorem getRunStatusData_of_none (hrun : e.store.getRun runId = none) :
    e.getRunStatusData w runId = .error ("run '" ++ runId ++ "' not found") := by
  unfold OrchestratorEngine.getRunStatusData
  rw [hrun]

theorem statuses_poll (seen : Sighting) :
    (seen.poll runId).statuses jobId = (seen.statusOf runId jobId).toList := by
  cases seen with
  | error err => rfl
  | ok x =>
    obtain ⟨w, e⟩ := x
    show Poll.statuses jobId (.body (some (runStatusBody (e.getRunStatusData w runId)))) =
      ((e.store.getRun runId).bind fun _ => ((e.store.getJob jobId).filter
        (fun job => job.runId == runId)).map (·.status.text)).toList
    cases hrun : e.store.getRun runId with
    | none =>
      rw [getRunStatusData_of_none hrun]
      rfl
    | some r =>
      rw [getRunStatusData_of_run hrun]
      show statusesIn jobId (((e.store.listRunJobs w runId).map (jobInfo w e)).map JobInfo.json) = _
      unfold statusesIn
      rw [List.map_map, List.filter_map, List.map_map]
      show List.map (fun job => job.status.text)
        ((e.store.listRunJobs w runId).filter (fun job => job.jobId == jobId)) = _
      rw [filter_listRunJobs]
      cases (e.store.getJob jobId).filter (fun job => job.runId == runId) <;> rfl

theorem final_poll (seen : Sighting) :
    (seen.poll runId).final = (seen.outcome runId).map (·.text) := by
  cases seen with
  | error err => rfl
  | ok x =>
    obtain ⟨w, e⟩ := x
    show Poll.final (.body (some (runStatusBody (e.getRunStatusData w runId)))) =
      (((e.store.getRun runId).map (·.status)).filter
        (fun st => st == .completed || st == .failed || st == .cancelled)).map (·.text)
    cases hrun : e.store.getRun runId with
    | none =>
      rw [getRunStatusData_of_none hrun]
      rfl
    | some r =>
      rw [getRunStatusData_of_run hrun]
      show (some r.status.text).filter Tail.isFinal = ((some r.status).filter
        (fun st => st == .completed || st == .failed || st == .cancelled)).map (·.text)
      cases r.status <;> rfl

end

/-- Whatever the daemon does between the polls and however many of them fail: of each job
of the run the client prints the statuses it had at the polls, each where it differs from
the one before, up to the first poll that finds the run over, and that is where it ends. -/
theorem tail_follows (runId : RunId) (jobId : JobId) (sightings : List (String × Sighting)) :
    let s := run Tail.step Tail.new (sightings.map (fun x => (x.1, x.2.poll runId)))
    s.statusesOf jobId = changes "" ((upTo (fun x => (x.2.outcome runId).isSome) sightings).filterMap
        (fun x => x.2.statusOf runId jobId)) ∧
      s.ended = (sightings.findSome? (fun x => x.2.outcome runId)).map (·.text) := by
  obtain ⟨hprinted, hended⟩ :=
    tail_prints (sightings.map (fun x => (x.1, x.2.poll runId))) jobId
  refine ⟨hprinted.trans ?_, hended.trans ?_⟩
  · rw [upTo_map, List.flatMap_map]
    simp only [statuses_poll, final_poll, Option.isSome_map]
    rw [← List.filterMap_eq_flatMap_toList]
  · rw [List.findSome?_map, List.map_findSome?]
    refine congrArg (fun f => List.findSome? f sightings) (funext fun x => ?_)
    exact final_poll x.2

end ZeptoPM
