import ZeptoPM.Planner

/- What a plan becomes. Ids that the plan does not have are left out without a word,
   and a record takes the place of one with the same id, so it is the validator that
   makes the translation a faithful one: `materializePlan_copies` says of an accepted
   plan that its jobs and channels are all there, and everything else as before. -/
namespace ZeptoPM

/-! ## Copies -/

/-- The planned job with its local ids replaced. -/
def PlannedJob.copied (w : World) (runId : RunId) (parentJobId : JobId) (m : String → JobId)
    (spec : PlannedJob) : Job where
  jobId := m spec.localId
  runId := runId
  parentJobId := some parentJobId
  role := spec.role
  status := if spec.dependsOn = [] then .ready else .pending
  instruction := spec.instruction
  inputArtifactIds := []
  dependsOn := spec.dependsOn.map m
  children := []
  profileId := spec.profileId
  workspaceDir := resolveWorkspace w runId (m spec.localId)
  attempt := 0
  maxAttempts := 3
  createdAt := w.now
  startedAt := none
  finishedAt := none
  outputArtifactIds := []
  error := none
  revisionRound := 0

/-- The id of the planned channel in the run. -/
def PlannedChannel.idIn (runId : RunId) (planned : PlannedChannel) : ChannelId :=
  runId ++ ":" ++ planned.channelId

/-- The planned channel with its local ids replaced. -/
def PlannedChannel.copied (runId : RunId) (m : String → JobId) (planned : PlannedChannel) :
    Channel where
  channelId := planned.idIn runId
  runId := runId
  participants := planned.participants.map m
  mode := planned.mode
  maxRounds := planned.maxRounds
  onPeerFailure := planned.onPeerFailure
  currentRound := 0
  currentSpeakerIdx := 0
  active := false
  closed := false
  history := []
  initialMessage := planned.initialMessage

/-- No job of the store has an id that is still to be drawn. -/
def Undrawn (w : World) (ids : IdSupply) (s : RunStore) : Prop :=
  ∀ n, ids.counter ≤ n → s.getJob (stampedId "job" w.now n) = none

/-- The store has gained the jobs and the channels of the plan, with `m` for the local
ids, and is otherwise the same. -/
structure Copied (w : World) (s : RunStore) (r : RunId) (p : JobId) (plan : ExecutionPlan)
    (m : String → JobId) (created : List JobId) (s' : RunStore) : Prop where
  inj : ∀ a ∈ plan.jobs, ∀ b ∈ plan.jobs, m a.localId = m b.localId → a.localId = b.localId
  ids : created = plan.jobs.map (fun spec => m spec.localId)
  nodup : created.Nodup
  newJobs : ∀ k ∈ created, s.getJob k = none
  job : ∀ spec ∈ plan.jobs, s'.getJob (m spec.localId) = some (spec.copied w r p m)
  otherJobs : ∀ k, k ∉ created → s'.getJob k = s.getJob k
  channelIds : (plan.channels.map (·.idIn r)).Nodup
  newChannels : ∀ ch ∈ plan.channels, s.getChannel (ch.idIn r) = none
  channel : ∀ ch ∈ plan.channels, s'.getChannel (ch.idIn r) = some (ch.copied r m)
  otherChannels : ∀ k, k ∉ plan.channels.map (·.idIn r) → s'.getChannel k = s.getChannel k
  runs : s'.runs = s.runs
  artifacts : s'.artifacts = s.artifacts

/-! ## The ids -/

/-- `idMap` names local ids by ids drawn between `ids` and `ids'`, each drawn once. -/
structure Drawn (w : World) (ids ids' : IdSupply) (idMap : HashMap String JobId) : Prop where
  le : ids.counter ≤ ids'.counter
  drawn : ∀ l id, idMap.get l = some id →
    ∃ n, ids.counter ≤ n ∧ n < ids'.counter ∧ id = stampedId "job" w.now n
  inj : ∀ a b id, idMap.get a = some id → idMap.get b = some id → a = b

section
variable {w : World} {ids : IdSupply}

theorem Drawn.insert {ids' : IdSupply} {idMap : HashMap String JobId} (h : Drawn w ids ids' idMap)
    (l : String) :
    Drawn w ids (genId w ids' "job").2 (idMap.insert l (genId w ids' "job").1) := by
  have hnew : ∀ a, idMap.get a ≠ some (genId w ids' "job").1 := by
    intro a ha
    obtain ⟨n, _, hlt, hid⟩ := h.drawn a _ ha
    exact Nat.ne_of_gt hlt (stampedId_inj hid).2
  refine ⟨Nat.le_succ_of_le h.le, ?_, ?_⟩
  · intro a id ha
    rw [HashMap.get_insert] at ha
    split at ha
    · cases ha
      exact ⟨ids'.counter, h.le, Nat.lt_succ_self _, rfl⟩
    · obtain ⟨n, hle, hlt, hid⟩ := h.drawn a id ha
      exact ⟨n, hle, Nat.lt_succ_of_lt hlt, hid⟩
  · intro a b id ha hb
    rw [HashMap.get_insert] at ha hb
    split at ha <;> split at hb
    · rename_i ha' hb'
      rw [ha', hb']
    · cases ha
      exact absurd hb (hnew b)
    · cases hb
      exact absurd ha (hnew a)
    · exact h.inj a b id ha hb

theorem drawn_assignIds (jobs : List PlannedJob) : ∀ acc : HashMap String JobId × IdSupply,
    Drawn w ids acc.2 acc.1 → Drawn w ids (assignIds w jobs acc).2 (assignIds w jobs acc).1 := by
  induction jobs with
  | nil => exact fun _ h => h
  | cons spec jobs ih =>
    intro acc h
    obtain ⟨idMap, ids'⟩ := acc
    exact ih _ (h.insert spec.localId)

theorem drawn_planIds (plan : ExecutionPlan) :
    Drawn w ids (assignIds w plan.jobs (.empty, ids)).2 (planIds w ids plan) :=
  drawn_assignIds plan.jobs (.empty, ids) ⟨Nat.le_refl _, nofun, nofun⟩

/-! ## The records -/

variable {plan : ExecutionPlan} {r : RunId} {p : JobId} {s : RunStore}

/-- The job id that stands for a local id. -/
def jobIdOf (w : World) (ids : IdSupply) (plan : ExecutionPlan) (l : String) : JobId :=
  ((planIds w ids plan).get l).getD ""

theorem get_planIds {l : String} (h : l ∈ plan.jobs.map (·.localId)) :
    (planIds w ids plan).get l = some (jobIdOf w ids plan l) := by
  obtain ⟨id, hid⟩ := planIds_get_iff.mpr h
  unfold jobIdOf
  rw [hid]
  rfl

/-- Where all local ids are known, none is left out. -/
theorem filterMap_planIds {ls : List String} (h : ∀ l ∈ ls, l ∈ plan.jobs.map (·.localId)) :
    ls.filterMap (planIds w ids plan).get = ls.map (jobIdOf w ids plan) := by
  induction ls with
  | nil => rfl
  | cons l ls ih =>
    rw [List.filterMap_cons, get_planIds (h l List.mem_cons_self), List.map_cons,
      ih (fun k hk => h k (List.mem_cons_of_mem l hk))]

theorem materializeJob_eq (hok : plan.Ok) {spec : PlannedJob} (hspec : spec ∈ plan.jobs) :
    materializeJob w r p (planIds w ids plan) spec =
      spec.copied w r p (jobIdOf w ids plan) := by
  have hdeps : spec.dependsOn.filterMap (planIds w ids plan).get =
      spec.dependsOn.map (jobIdOf w ids plan) :=
    filterMap_planIds (fun l hl => ((hok.job spec hspec).dependsOn l hl).1)
  unfold materializeJob PlannedJob.copied
  rw [hdeps]
  simp [jobIdOf]

theorem materializeChannel_eq (hok : plan.Ok) {ch : PlannedChannel} (hch : ch ∈ plan.channels) :
    materializeChannel r (planIds w ids plan) ch = ch.copied r (jobIdOf w ids plan) := by
  unfold materializeChannel PlannedChannel.copied
  rw [filterMap_planIds (hok.channel ch hch).known]
  rfl

theorem jobIdOf_inj {a b : String} (ha : a ∈ plan.jobs.map (·.localId))
    (hb : b ∈ plan.jobs.map (·.localId)) (h : jobIdOf w ids plan a = jobIdOf w ids plan b) :
    a = b := by
  have hdrawn : Drawn w ids _ (planIds w ids plan) := drawn_planIds plan
  refine hdrawn.inj a b _ (get_planIds ha) ?_
  rw [h]
  exact get_planIds hb

theorem planJobs_eq (hok : plan.Ok) :
    planJobs w ids r p plan = plan.jobs.map (·.copied w r p (jobIdOf w ids plan)) :=
  List.map_congr_left (fun _ h => materializeJob_eq hok h)

theorem planChannels_eq (hok : plan.Ok) :
    planChannels w ids r plan = plan.channels.map (·.copied r (jobIdOf w ids plan)) :=
  List.map_congr_left (fun _ h => materializeChannel_eq hok h)

theorem created_eq (hok : plan.Ok) : (materializePlan w s ids r p plan).1 =
    plan.jobs.map (fun spec => jobIdOf w ids plan spec.localId) := by
  rw [materializePlan_ids, planJobs_eq hok, List.map_map]
  rfl

theorem nodup_jobIds (hok : plan.Ok) :
    (plan.jobs.map (fun spec => jobIdOf w ids plan spec.localId)).Nodup := by
  refine List.Nodup.map_on ?_ (List.Nodup.of_map _ hok.localIds)
  intro a ha b hb hab
  have hlocal := jobIdOf_inj (List.mem_map_of_mem ha) (List.mem_map_of_mem hb) hab
  exact List.inj_on_of_nodup_map hok.localIds ha hb hlocal

theorem nodup_channelIds (hok : plan.Ok) : (plan.channels.map (·.idIn r)).Nodup := by
  refine List.Nodup.map_on ?_ (List.Nodup.of_map _ hok.channelIds)
  intro a ha b hb hab
  have hlist : (r ++ ":").toList ++ a.channelId.toList =
      (r ++ ":").toList ++ b.channelId.toList := by
    rw [← String.toList_append, ← String.toList_append]
    exact congrArg String.toList hab
  have hid := String.toList_inj.mp (List.append_cancel_left hlist)
  exact List.inj_on_of_nodup_map hok.channelIds ha hb hid

theorem keys_planChannels (hok : plan.Ok) :
    (planChannels w ids r plan).map (·.channelId) = plan.channels.map (·.idIn r) := by
  rw [planChannels_eq hok, List.map_map]
  rfl

/-- The channel ids of a run are not those of any other. -/
theorem getChannel_idIn_none (hr : ':' ∉ r.toList)
    (hnone : ∀ k c, s.getChannel k = some c → c.runId ≠ r)
    (hform : ∀ k c, s.getChannel k = some c →
      ':' ∉ c.runId.toList ∧ ∃ planned, c.channelId = c.runId ++ ":" ++ planned)
    (ch : PlannedChannel) : s.getChannel (ch.idIn r) = none := by
  cases hget : s.getChannel (ch.idIn r) with
  | none => rfl
  | some c =>
    obtain ⟨hcolon, planned, hid⟩ := hform _ c hget
    have hkey := RunStore.channelId_of_getChannel hget
    have hrun : c.runId = r := channelId_inj hcolon hr (hid.symm.trans hkey)
    exact absurd hrun (hnone _ c hget)

end

/-! ## Materialisation copies the plan -/

/-- For every accepted plan and every store without channels of the run, in which run
ids have no colon in them and the ids to be drawn are new. -/
theorem materializePlan_copies (w : World) (s : RunStore) (ids : IdSupply) (r : RunId)
    (p : JobId) (plan : ExecutionPlan) (hvalid : validatePlan plan = []) (hfresh : Undrawn w ids s)
    (hr : ':' ∉ r.toList) (hnone : ∀ k c, s.getChannel k = some c → c.runId ≠ r)
    (hform : ∀ k c, s.getChannel k = some c →
      ':' ∉ c.runId.toList ∧ ∃ planned, c.channelId = c.runId ++ ":" ++ planned) :
    ∃ m, Copied w s r p plan m (materializePlan w s ids r p plan).1
      (materializePlan w s ids r p plan).2.1 := by
  have hok := validatePlan_eq_nil.mp hvalid
  have hcreated : (materializePlan w s ids r p plan).1 = _ := created_eq hok
  have hkeys : (planChannels w ids r plan).map (·.channelId) = _ := keys_planChannels hok
  have hjobKeys : ((planJobs w ids r p plan).map (·.jobId)).Nodup := by
    rw [← materializePlan_ids (s := s), hcreated]
    exact nodup_jobIds hok
  have hchannelKeys : ((planChannels w ids r plan).map (·.channelId)).Nodup := by
    rw [hkeys]
    exact nodup_channelIds hok
  refine ⟨jobIdOf w ids plan, ?_, hcreated, ?_, ?_, ?_, ?_, nodup_channelIds hok,
    fun ch _ => getChannel_idIn_none hr hnone hform ch, ?_, ?_, rfl, rfl⟩
  · intro a ha b hb
    exact jobIdOf_inj (List.mem_map_of_mem ha) (List.mem_map_of_mem hb)
  · rw [hcreated]
    exact nodup_jobIds hok
  · -- every id is drawn from the supply, and the store has none of these
    intro k hk
    rw [hcreated] at hk
    obtain ⟨spec, hspec, rfl⟩ := List.mem_map.mp hk
    have hdrawn : Drawn w ids _ (planIds w ids plan) := drawn_planIds plan
    obtain ⟨n, hle, _, hid⟩ :=
      hdrawn.drawn spec.localId _ (get_planIds (List.mem_map_of_mem hspec))
    rw [hid]
    exact hfresh n hle
  · intro spec hspec
    have hmem : spec.copied w r p (jobIdOf w ids plan) ∈ planJobs w ids r p plan := by
      rw [planJobs_eq hok]
      exact List.mem_map_of_mem hspec
    exact Table.get_putAll_of_mem hjobKeys hmem
  · exact fun k hk => getJob_materializePlan_of_notMem hk
  · intro ch hch
    have hmem : ch.copied r (jobIdOf w ids plan) ∈ planChannels w ids r plan := by
      rw [planChannels_eq hok]
      exact List.mem_map_of_mem hch
    exact Table.get_putAll_of_mem hchannelKeys hmem
  · intro k hk
    rw [← hkeys] at hk
    exact getChannel_materializePlan_of_notMem hk

def talkChannel : PlannedChannel where
  channelId := "c"
  participants := ["b", "a"]
  mode := .turnBased
  maxRounds := none
  onPeerFailure := .killAll
  initialMessage := none

/-- Two jobs that talk to each other, the second once the first is done. -/
def talkPlan : ExecutionPlan where
  jobs :=
    [{ localId := "a", role := "coder", profileId := "coder", instruction := "write",
       dependsOn := [] },
     { localId := "b", role := "tester", profileId := "tester", instruction := "test",
       dependsOn := ["a"] }]
  channels := [talkChannel]

/-- A store that holds the channel of the same plan in another run. -/
def talkStore : RunStore := RunStore.new.createChannel (talkChannel.copied "run_0_0" (fun l => l))

theorem materializePlan_copies_talk : ∃ m, Copied World.bare talkStore "run_0_1" "job_0_2"
    talkPlan m (materializePlan World.bare talkStore IdSupply.new "run_0_1" "job_0_2" talkPlan).1
    (materializePlan World.bare talkStore IdSupply.new "run_0_1" "job_0_2" talkPlan).2.1 := by
  have honly : ∀ k c, talkStore.getChannel k = some c → c.runId = "run_0_0" ∧
      c.channelId = "run_0_0" ++ ":" ++ "c" := by
    intro k c hc
    have hget := (Table.get_put ..).symm.trans hc
    split at hget
    · cases hget
      exact ⟨rfl, rfl⟩
    · cases hget
  refine materializePlan_copies World.bare talkStore IdSupply.new "run_0_1" "job_0_2" talkPlan
    (by decide) (fun _ _ => rfl) (by decide) ?_ ?_
  · intro k c hc
    rw [(honly k c hc).1]
    decide
  · intro k c hc
    obtain ⟨hrun, hid⟩ := honly k c hc
    rw [hrun]
    exact ⟨by decide, "c", hid⟩

end ZeptoPM
