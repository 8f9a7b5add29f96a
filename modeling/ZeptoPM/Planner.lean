import ZeptoPM.Store
import ZeptoPM.Text

/- The planner's output: validation of an execution plan, and its translation
   into jobs and channels under fresh ids. `validatePlan_eq_nil` says what an
   accepted plan looks like, and `IdAssignment` what the translation of local
   ids into job ids can be relied on for. -/
namespace ZeptoPM

/-- `s.trim().is_empty()`. -/
def isBlank (s : String) : Bool := (Text.trim s.toList).isEmpty

def dependencyErrors (localIds : List String) (i : Nat) (job : PlannedJob) (dep : String) :
    List String :=
  (if localIds.contains dep then [] else
    ["job[" ++ toString i ++ "] '" ++ job.localId ++ "': depends_on '" ++ dep ++
      "' not found in plan"]) ++
  (if dep == job.localId then
    ["job[" ++ toString i ++ "] '" ++ job.localId ++ "': depends on itself"] else [])

def plannedJobErrors (localIds : List String) (i : Nat) (job : PlannedJob) : List String :=
  (if isBlank job.localId then ["job[" ++ toString i ++ "]: local_id is empty"] else []) ++
  (if isBlank job.role then
    ["job[" ++ toString i ++ "] '" ++ job.localId ++ "': role is empty"] else []) ++
  (if isBlank job.profileId then
    ["job[" ++ toString i ++ "] '" ++ job.localId ++ "': profile_id is empty"] else []) ++
  (if isBlank job.instruction then
    ["job[" ++ toString i ++ "] '" ++ job.localId ++ "': instruction is empty"] else []) ++
  job.dependsOn.flatMap (dependencyErrors localIds i job)

/-- One error for every id of the list that was seen before. -/
def duplicateErrors (what : String) : List String → List String → List String
  | _, [] => []
  | seen, id :: rest =>
    (if seen.contains id then ["duplicate " ++ what ++ ": '" ++ id ++ "'"] else []) ++
      duplicateErrors what (id :: seen) rest

def plannedChannelErrors (localIds : List String) (i : Nat) (ch : PlannedChannel) :
    List String :=
  (if ch.participants.isEmpty then
    ["channel[" ++ toString i ++ "] '" ++ ch.channelId ++ "': no participants"] else []) ++
  (if ch.mode == .turnBased && ch.participants.length < 2 then
    ["channel[" ++ toString i ++ "] '" ++ ch.channelId ++
      "': TurnBased requires at least 2 participants"] else []) ++
  ch.participants.flatMap (fun p => if localIds.contains p then [] else
    ["channel[" ++ toString i ++ "] '" ++ ch.channelId ++ "': participant '" ++ p ++
      "' not found in plan jobs"])

/-- The channel loop: each channel's id is checked against those seen so far,
then the channel itself. -/
def channelErrors (localIds : List String) : Nat → List String → List PlannedChannel → List String
  | _, _, [] => []
  | i, seen, ch :: rest =>
    (if seen.contains ch.channelId then
      ["duplicate channel_id: '" ++ ch.channelId ++ "'"] else []) ++
    plannedChannelErrors localIds i ch ++
    channelErrors localIds (i + 1) (ch.channelId :: seen) rest

/-- Validate an `ExecutionPlan`. Returns a list of errors (empty = valid). -/
def validatePlan (plan : ExecutionPlan) : List String :=
  if plan.jobs.isEmpty then ["plan has no jobs"]
  else
    let localIds := plan.jobs.map (·.localId)
    plan.jobs.zipIdx.flatMap (fun e => plannedJobErrors localIds e.2 e.1) ++
    duplicateErrors "local_id" [] localIds ++
    channelErrors localIds 0 [] plan.channels

def resolveWorkspace (w : World) (runId : RunId) (jobId : JobId) : PathBuf :=
  ((((w.homeDir.getD ".").join ".zeptopm").join "runs").join runId).join jobId

/-- Maps each local id to a real job id, in plan order. -/
def assignIds (w : World) :
    List PlannedJob → HashMap String JobId × IdSupply → HashMap String JobId × IdSupply
  | [], acc => acc
  | spec :: rest, (idMap, ids) =>
    let (jobId, ids') := genId w ids "job"
    assignIds w rest (idMap.insert spec.localId jobId, ids')

def materializeJob (w : World) (runId : RunId) (parentJobId : JobId)
    (idMap : HashMap String JobId) (spec : PlannedJob) : Job :=
  let realId := (idMap.get spec.localId).getD ""
  let realDeps := spec.dependsOn.filterMap idMap.get
  { jobId := realId
    runId := runId
    parentJobId := some parentJobId
    role := spec.role
    status := if realDeps.isEmpty then .ready else .pending
    instruction := spec.instruction
    inputArtifactIds := []
    dependsOn := realDeps
    children := []
    profileId := spec.profileId
    workspaceDir := resolveWorkspace w runId realId
    attempt := 0
    maxAttempts := 3
    createdAt := w.now
    startedAt := none
    finishedAt := none
    outputArtifactIds := []
    error := none
    revisionRound := 0 }

def materializeChannel (runId : RunId) (idMap : HashMap String JobId)
    (planned : PlannedChannel) : Channel :=
  { channelId := runId ++ ":" ++ planned.channelId
    runId := runId
    participants := planned.participants.filterMap idMap.get
    mode := planned.mode
    maxRounds := planned.maxRounds
    onPeerFailure := planned.onPeerFailure
    currentRound := 0
    currentSpeakerIdx := 0
    active := false
    closed := false
    history := []
    initialMessage := planned.initialMessage }

/-- Turn an `ExecutionPlan` into real jobs in the store. Returns the ids of the
created jobs in plan order. -/
def materializePlan (w : World) (s : RunStore) (ids : IdSupply) (runId : RunId)
    (parentJobId : JobId) (plan : ExecutionPlan) : List JobId × RunStore × IdSupply :=
  let (idMap, ids') := assignIds w plan.jobs (.empty, ids)
  let jobs := plan.jobs.map (materializeJob w runId parentJobId idMap)
  let channels := plan.channels.map (materializeChannel runId idMap)
  (jobs.map (·.jobId),
    { s with jobs := s.jobs.putAll jobs, channels := s.channels.putAll channels }, ids')

/-! ## What the validator accepts -/

structure PlannedJob.Ok (localIds : List String) (job : PlannedJob) : Prop where
  localId : isBlank job.localId = false
  role : isBlank job.role = false
  profileId : isBlank job.profileId = false
  instruction : isBlank job.instruction = false
  dependsOn : ∀ dep ∈ job.dependsOn, dep ∈ localIds ∧ dep ≠ job.localId

structure PlannedChannel.Ok (localIds : List String) (ch : PlannedChannel) : Prop where
  participants : ch.participants ≠ []
  turnBased : ch.mode = .turnBased → 2 ≤ ch.participants.length
  known : ∀ p ∈ ch.participants, p ∈ localIds

structure ExecutionPlan.Ok (plan : ExecutionPlan) : Prop where
  jobs : plan.jobs ≠ []
  job : ∀ job ∈ plan.jobs, job.Ok (plan.jobs.map (·.localId))
  localIds : (plan.jobs.map (·.localId)).Nodup
  channel : ∀ ch ∈ plan.channels, ch.Ok (plan.jobs.map (·.localId))
  channelIds : (plan.channels.map (·.channelId)).Nodup

theorem dependencyErrors_eq_nil {localIds : List String} {i : Nat} {job : PlannedJob}
    {dep : String} : dependencyErrors localIds i job dep = [] ↔
      dep ∈ localIds ∧ dep ≠ job.localId := by
  simp [dependencyErrors]

theorem plannedJobErrors_eq_nil {localIds : List String} {i : Nat} {job : PlannedJob} :
    plannedJobErrors localIds i job = [] ↔ job.Ok localIds := by
  simp only [plannedJobErrors, List.append_eq_nil_iff, ite_eq_right_iff, List.cons_ne_nil,
    imp_false, Bool.not_eq_true, List.flatMap_eq_nil_iff, dependencyErrors_eq_nil]
  refine ⟨?_, ?_⟩
  · intro h
    obtain ⟨⟨⟨⟨h₁, h₂⟩, h₃⟩, h₄⟩, h₅⟩ := h
    exact ⟨h₁, h₂, h₃, h₄, h₅⟩
  · intro h
    obtain ⟨h₁, h₂, h₃, h₄, h₅⟩ := h
    exact ⟨⟨⟨⟨h₁, h₂⟩, h₃⟩, h₄⟩, h₅⟩

theorem plannedChannelErrors_eq_nil {localIds : List String} {i : Nat} {ch : PlannedChannel} :
    plannedChannelErrors localIds i ch = [] ↔ ch.Ok localIds := by
  simp only [plannedChannelErrors, List.append_eq_nil_iff, ite_eq_right_iff, List.cons_ne_nil,
    imp_false, Bool.not_eq_true, List.flatMap_eq_nil_iff, Bool.and_eq_false_iff,
    List.isEmpty_eq_false_iff, beq_eq_false_iff_ne, decide_eq_false_iff_not, ite_eq_left_iff,
    List.contains_iff_mem, Decidable.not_not]
  refine ⟨?_, ?_⟩
  · intro h
    obtain ⟨⟨h₁, h₂⟩, h₃⟩ := h
    refine ⟨h₁, fun hm => ?_, h₃⟩
    rcases h₂ with h | h
    · exact absurd hm h
    · omega
  · intro h
    obtain ⟨h₁, h₂, h₃⟩ := h
    refine ⟨⟨h₁, ?_⟩, h₃⟩
    by_cases hm : ch.mode = .turnBased
    · right
      have := h₂ hm
      omega
    · exact Or.inl hm

theorem duplicateErrors_eq_nil {what : String} {l : List String} : ∀ {seen : List String},
    duplicateErrors what seen l = [] ↔ l.Nodup ∧ ∀ id ∈ l, id ∉ seen := by
  induction l with
  | nil => intro seen; simp [duplicateErrors]
  | cons id l ih =>
    intro seen
    rw [duplicateErrors, List.append_eq_nil_iff, ih]
    simp only [ite_eq_right_iff, List.cons_ne_nil, imp_false, List.contains_iff_mem,
      List.nodup_cons, List.mem_cons, not_or, forall_eq_or_imp]
    refine ⟨?_, ?_⟩
    · intro h
      obtain ⟨h, hnd, hrest⟩ := h
      exact ⟨⟨fun hid => (hrest id hid).1 rfl, hnd⟩, h, fun a ha => (hrest a ha).2⟩
    · intro h
      obtain ⟨⟨hid, hnd⟩, h, hrest⟩ := h
      exact ⟨h, hnd, fun a ha => ⟨fun heq => hid (heq ▸ ha), hrest a ha⟩⟩

theorem channelErrors_eq_nil {localIds : List String} {l : List PlannedChannel} :
    ∀ {i : Nat} {seen : List String}, channelErrors localIds i seen l = [] ↔
      (∀ ch ∈ l, ch.Ok localIds) ∧ (l.map (·.channelId)).Nodup ∧ ∀ ch ∈ l, ch.channelId ∉ seen := by
  induction l with
  | nil => intro i seen; simp [channelErrors]
  | cons ch l ih =>
    intro i seen
    rw [channelErrors, List.append_eq_nil_iff, List.append_eq_nil_iff, ih,
      plannedChannelErrors_eq_nil]
    simp only [ite_eq_right_iff, List.cons_ne_nil, imp_false, List.contains_iff_mem,
      List.map_cons, List.nodup_cons, List.mem_cons, not_or, forall_eq_or_imp, List.mem_map]
    refine ⟨?_, ?_⟩
    · intro h
      obtain ⟨⟨h, hok⟩, hrest, hnd, hseen⟩ := h
      refine ⟨⟨hok, hrest⟩, ⟨?_, hnd⟩, h, fun a ha => (hseen a ha).2⟩
      intro h
      obtain ⟨a, ha, heq⟩ := h
      exact (hseen a ha).1 heq
    · intro h
      obtain ⟨⟨hok, hrest⟩, ⟨hid, hnd⟩, h, hseen⟩ := h
      exact ⟨⟨h, hok⟩, hrest, hnd, fun a ha => ⟨fun heq => hid ⟨a, ha, heq⟩, hseen a ha⟩⟩

theorem validatePlan_eq_nil {plan : ExecutionPlan} : validatePlan plan = [] ↔ plan.Ok := by
  have hjobs : (∀ e ∈ plan.jobs.zipIdx, plannedJobErrors (plan.jobs.map (·.localId)) e.2 e.1 = []) ↔
      ∀ job ∈ plan.jobs, job.Ok (plan.jobs.map (·.localId)) := by
    refine ⟨?_, ?_⟩
    · intro h job hjob
      obtain ⟨i, hi, heq⟩ := List.mem_iff_getElem.mp hjob
      have hmem : (job, i) ∈ plan.jobs.zipIdx := by
        rw [List.mk_mem_zipIdx_iff_getElem?, ← heq]
        exact List.getElem?_eq_getElem hi
      have herr := h (job, i) hmem
      rwa [plannedJobErrors_eq_nil] at herr
    · intro h e he
      have hmem : e.1 ∈ plan.jobs := List.fst_mem_of_mem_zipIdx he
      rw [plannedJobErrors_eq_nil]
      exact h e.1 hmem
  unfold validatePlan
  split
  · rename_i hempty
    refine ⟨?_, ?_⟩
    · intro h
      cases h
    · intro h
      exact absurd (List.isEmpty_iff.mp hempty) h.jobs
  · rename_i hempty
    rw [List.append_eq_nil_iff, List.append_eq_nil_iff, List.flatMap_eq_nil_iff, hjobs,
      duplicateErrors_eq_nil, channelErrors_eq_nil]
    refine ⟨?_, ?_⟩
    · intro h
      obtain ⟨⟨hjob, hnd, _⟩, hch, hchnd, _⟩ := h
      exact ⟨fun h => hempty (List.isEmpty_iff.mpr h), hjob, hnd, hch, hchnd⟩
    · intro h
      obtain ⟨_, hjob, hnd, hch, hchnd⟩ := h
      exact ⟨⟨hjob, hnd, fun _ _ => List.not_mem_nil⟩, hch, hchnd, fun _ _ => List.not_mem_nil⟩

/-! ## The ids a plan's jobs receive -/

/-- `idMap` names local ids by distinct ids drawn between `ids` and `ids'`. -/
structure IdAssignment (ids ids' : IdSupply) (idMap : HashMap String JobId) : Prop where
  le : ids.Le ids'
  startedAt : ids'.startedAt = ids.startedAt
  fresh : ∀ l id, idMap.get l = some id → ¬ Issued ids id
  issued : ∀ l id, idMap.get l = some id → Issued ids' id
  inj : ∀ a b id, idMap.get a = some id → idMap.get b = some id → a = b

theorem IdAssignment.insert {w : World} {ids ids' : IdSupply} {idMap : HashMap String JobId}
    (h : IdAssignment ids ids' idMap) (hw : w.After ids) (l pre : String) :
    IdAssignment ids (genId w ids' pre).2 (idMap.insert l (genId w ids' pre).1) := by
  have hnew : ¬ Issued ids' (genId w ids' pre).1 := by
    apply genId_fresh
    unfold World.After at hw ⊢
    rwa [h.startedAt]
  have hle := IdSupply.le_genId w ids' pre
  refine ⟨h.le.trans hle, h.startedAt, ?_, ?_, ?_⟩
  · intro a id ha
    rw [HashMap.get_insert] at ha
    split at ha
    · cases ha
      exact fun hi => hnew (hi.mono h.le)
    · exact h.fresh a id ha
  · intro a id ha
    rw [HashMap.get_insert] at ha
    split at ha
    · cases ha
      exact issued_genId
    · exact (h.issued a id ha).mono hle
  · intro a b id ha hb
    rw [HashMap.get_insert] at ha hb
    split at ha <;> split at hb
    · rename_i ha' hb'
      rw [ha', hb']
    · cases ha
      exact absurd (h.issued b _ hb) hnew
    · cases hb
      exact absurd (h.issued a _ ha) hnew
    · exact h.inj a b id ha hb

theorem IdAssignment.empty (ids : IdSupply) : IdAssignment ids ids .empty :=
  ⟨.refl ids, rfl, fun _ _ h => by simp at h, fun _ _ h => by simp at h,
    fun _ _ _ h => by simp at h⟩

section
variable {w : World} {ids : IdSupply}

theorem assignIds_assignment (hw : w.After ids) (jobs : List PlannedJob) :
    ∀ acc : HashMap String JobId × IdSupply, IdAssignment ids acc.2 acc.1 →
      IdAssignment ids (assignIds w jobs acc).2 (assignIds w jobs acc).1 := by
  induction jobs with
  | nil => exact fun _ h => h
  | cons spec jobs ih =>
    intro acc h
    obtain ⟨idMap, ids'⟩ := acc
    exact ih _ (h.insert hw spec.localId "job")

/-- The bound local ids after assignment: those bound before and those of the plan. -/
theorem assignIds_isSome (jobs : List PlannedJob) (l : String) :
    ∀ {acc : HashMap String JobId × IdSupply}, ((assignIds w jobs acc).1.get l).isSome =
      ((acc.1.get l).isSome || (jobs.map (·.localId)).contains l) := by
  induction jobs with
  | nil => intro acc; simp [assignIds]
  | cons spec jobs ih =>
    intro acc
    obtain ⟨idMap, ids'⟩ := acc
    rw [assignIds, ih, HashMap.get_insert]
    by_cases hl : l = spec.localId
    · simp [hl]
    · simp [hl]

theorem assignIds_le_startedAt (jobs : List PlannedJob) :
    ∀ acc : HashMap String JobId × IdSupply, acc.2.Le (assignIds w jobs acc).2 ∧
      (assignIds w jobs acc).2.startedAt = acc.2.startedAt := by
  induction jobs with
  | nil => exact fun _ => ⟨.refl _, rfl⟩
  | cons spec jobs ih =>
    intro acc
    obtain ⟨idMap, ids'⟩ := acc
    obtain ⟨hle, hst⟩ := ih (idMap.insert spec.localId (genId w ids' "job").1,
      (genId w ids' "job").2)
    exact ⟨(IdSupply.le_genId w ids' "job").trans hle, hst⟩

end

/-! ## What materialisation leaves in the store -/

section
variable {w : World} {s : RunStore} {ids : IdSupply} {r : RunId} {p : JobId}
  {plan : ExecutionPlan}

/-- The job ids given to the plan's local ids. -/
def planIds (w : World) (ids : IdSupply) (plan : ExecutionPlan) : HashMap String JobId :=
  (assignIds w plan.jobs (.empty, ids)).1

/-- The jobs a plan becomes. -/
def planJobs (w : World) (ids : IdSupply) (r : RunId) (p : JobId) (plan : ExecutionPlan) :
    List Job := plan.jobs.map (materializeJob w r p (planIds w ids plan))

/-- The channels a plan becomes. -/
def planChannels (w : World) (ids : IdSupply) (r : RunId) (plan : ExecutionPlan) :
    List Channel := plan.channels.map (materializeChannel r (planIds w ids plan))

theorem planIds_assignment (hw : w.After ids) (plan : ExecutionPlan) :
    IdAssignment ids (assignIds w plan.jobs (.empty, ids)).2 (planIds w ids plan) :=
  assignIds_assignment hw plan.jobs (.empty, ids) (.empty ids)

theorem planIds_get_iff {l : String} :
    (∃ id, (planIds w ids plan).get l = some id) ↔ l ∈ plan.jobs.map (·.localId) := by
  rw [← Option.isSome_iff_exists, planIds, assignIds_isSome]
  simp

theorem planIds_get_of_mem (w : World) (ids : IdSupply) {spec : PlannedJob} (h : spec ∈ plan.jobs) :
    ∃ id, (planIds w ids plan).get spec.localId = some id :=
  planIds_get_iff.mpr (List.mem_map_of_mem h)

/-- A job of the plan's translation, with the local id and the real id it stands for. -/
theorem mem_planJobs {job : Job} : job ∈ planJobs w ids r p plan ↔
    ∃ spec ∈ plan.jobs, ∃ id, (planIds w ids plan).get spec.localId = some id ∧
      job = materializeJob w r p (planIds w ids plan) spec ∧ job.jobId = id := by
  unfold planJobs
  rw [List.mem_map]
  refine ⟨?_, ?_⟩
  · intro h
    obtain ⟨spec, hspec, rfl⟩ := h
    obtain ⟨id, hid⟩ := planIds_get_of_mem w ids hspec
    exact ⟨spec, hspec, id, hid, rfl, by simp [materializeJob, hid]⟩
  · intro h
    obtain ⟨spec, hspec, _, _, rfl, _⟩ := h
    exact ⟨spec, hspec, rfl⟩

/-- Channel ids of different runs differ. -/
theorem channelId_inj {a b x y : String} (ha : ':' ∉ a.toList) (hb : ':' ∉ b.toList)
    (h : a ++ ":" ++ x = b ++ ":" ++ y) : a = b := by
  have hl : a.toList ++ ':' :: x.toList = b.toList ++ ':' :: y.toList := by
    simpa using congrArg String.toList h
  have htake : ∀ c z : List Char, ':' ∉ c →
      (c ++ ':' :: z).takeWhile (fun d => d != ':') = c := by
    intro c z hc
    rw [List.takeWhile_append_of_pos]
    · simp
    · intro d hd
      rw [bne_iff_ne]
      intro heq
      subst heq
      exact hc hd
  have heq := congrArg (List.takeWhile (fun d => d != ':')) hl
  rw [htake _ _ ha, htake _ _ hb] at heq
  exact String.toList_inj.mp heq

theorem materializePlan_ids : (materializePlan w s ids r p plan).1 =
    (planJobs w ids r p plan).map (·.jobId) := rfl

theorem materializePlan_fresh (hw : w.After ids) {k : JobId}
    (h : k ∈ (materializePlan w s ids r p plan).1) :
    ¬ Issued ids k ∧ Issued (materializePlan w s ids r p plan).2.2 k := by
  rw [materializePlan_ids, List.mem_map] at h
  obtain ⟨job, hjob, rfl⟩ := h
  obtain ⟨spec, _, id, hid, _, rfl⟩ := mem_planJobs.mp hjob
  have hassign := planIds_assignment hw plan
  exact ⟨hassign.fresh _ _ hid, hassign.issued _ _ hid⟩

theorem materializePlan_nodup (hw : w.After ids) (hok : plan.Ok) :
    (materializePlan w s ids r p plan).1.Nodup := by
  rw [materializePlan_ids, planJobs, List.map_map]
  refine List.Nodup.map_on ?_ (List.Nodup.of_map _ hok.localIds)
  intro a ha b hb hab
  obtain ⟨ia, hia⟩ := planIds_get_of_mem w ids ha
  obtain ⟨ib, hib⟩ := planIds_get_of_mem w ids hb
  have heq : ia = ib := by simpa [materializeJob, hia, hib] using hab
  subst heq
  have hlocal := (planIds_assignment hw plan).inj _ _ _ hia hib
  exact List.inj_on_of_nodup_map hok.localIds ha hb hlocal

theorem getJob_materializePlan_of_notMem {k : JobId}
    (h : k ∉ (materializePlan w s ids r p plan).1) :
    (materializePlan w s ids r p plan).2.1.getJob k = s.getJob k :=
  Table.get_putAll_of_notMem h

theorem getJob_materializePlan_cases {k : JobId} {job : Job}
    (h : (materializePlan w s ids r p plan).2.1.getJob k = some job) :
    (job ∈ planJobs w ids r p plan ∧ k ∈ (materializePlan w s ids r p plan).1) ∨
      (k ∉ (materializePlan w s ids r p plan).1 ∧ s.getJob k = some job) := by
  rcases Table.get_putAll_cases h with hmem | hold
  · refine Or.inl ⟨hmem, ?_⟩
    have hk := RunStore.jobId_of_getJob h
    exact hk ▸ List.mem_map_of_mem hmem
  · exact Or.inr hold

theorem getJob_materializePlan_of_mem (hw : w.After ids) (hok : plan.Ok) {job : Job}
    (h : job ∈ planJobs w ids r p plan) :
    (materializePlan w s ids r p plan).2.1.getJob job.jobId = some job :=
  Table.get_putAll_of_mem (materializePlan_nodup (s := s) (r := r) (p := p) hw hok) h

theorem getChannel_materializePlan_cases {k : ChannelId} {c : Channel}
    (h : (materializePlan w s ids r p plan).2.1.getChannel k = some c) :
    c ∈ planChannels w ids r plan ∨
      (k ∉ (planChannels w ids r plan).map (·.channelId) ∧ s.getChannel k = some c) :=
  Table.get_putAll_cases h

theorem getChannel_materializePlan_of_notMem {k : ChannelId}
    (h : k ∉ (planChannels w ids r plan).map (·.channelId)) :
    (materializePlan w s ids r p plan).2.1.getChannel k = s.getChannel k :=
  Table.get_putAll_of_notMem h

@[simp] theorem getRun_materializePlan (k : RunId) :
    (materializePlan w s ids r p plan).2.1.getRun k = s.getRun k := rfl

theorem materializePlan_le : ids.Le (materializePlan w s ids r p plan).2.2 ∧
    (materializePlan w s ids r p plan).2.2.startedAt = ids.startedAt :=
  assignIds_le_startedAt plan.jobs (.empty, ids)

end

end ZeptoPM
