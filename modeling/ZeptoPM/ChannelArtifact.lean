import ZeptoPM.Course
import ZeptoPM.Timeouts

/- What is left of a channel job. When a channel closes its participants are gone through:
   those that are in another open channel are skipped, the others completed, with an artifact
   that recounts all their channels (`recounts_buildChannelArtifactContent`). Nothing that is
   done for one participant touches the channels of the others, so each is completed in its
   turn and in no other (`leaves_participants`). -/
namespace ZeptoPM
open OrchestratorEngine Daemon

/-! ## Participants of a closed channel -/

/-- An action for another participant of the channel that has been closed. -/
def Mild (j : JobId) (x : World × Action) : Prop :=
  match x.2 with
  | .call _ (.markCompleted k _) => k ≠ j
  | .call _ (.createArtifact _) | .genId _ | .persistArtifact _ => True
  | _ => False

/-- The content is written down as an artifact of the job, with its beginning for a summary,
if its file can be written. -/
def Writes (w : World) (r : RunId) (job : Job) (content : String) (l : List (World × Action))
    (artifacts : List ArtifactId) : Prop :=
  if w.writeOk (job.workspaceDir.join "channel-output.md") then
    ∃ artifact : Artifact, (w, .call r (.createArtifact artifact)) ∈ l ∧
      artifact.jobId = job.jobId ∧ artifact.path = job.workspaceDir.join "channel-output.md" ∧
      artifact.summary = .ofList (content.toList.take 200) ∧ artifacts = [artifact.artifactId]
  else artifacts = []

/-- The job is not to be completed: it is in another channel that is open, or completed. -/
def Skips (j : JobId) (chId : ChannelId) (e : OrchestratorEngine) : Prop :=
  (∃ id, id ≠ chId ∧ e.Standing j id false) ∨ e.statusOf j = some .completed

section
variable {w : World} {r : RunId} {c : Core} {x : World × Action} {j k : JobId} {chId : ChannelId}
  {d d' : Daemon} {l : List (World × Action)}

theorem channel_mild (h : Mild j x) (id : ChannelId) :
    (coreStep c x).engine.store.getChannel id = c.engine.store.getChannel id := by
  obtain ⟨w, a⟩ := x
  cases a with
  | call r f =>
    cases f with
    | markCompleted k o => exact getChannel_spared w c.engine (f := .markCompleted k o) rfl id
    | createArtifact a => rfl
    | _ => cases h
  | genId pre => rfl
  | persistArtifact a => rfl
  | _ => cases h

/-- A job that is started or over stays as it is. -/
theorem job_mild (h : Mild j x) {job : Job} (hjob : c.engine.store.getJob j = some job)
    (hst : job.status ≠ .pending) : (coreStep c x).engine.store.getJob j = some job := by
  obtain ⟨w, a⟩ := x
  cases a with
  | call r f =>
    cases f with
    | markCompleted k o => exact getJob_markCompleted_kept (Ne.symm h) hjob hst
    | createArtifact a => exact hjob
    | _ => cases h
  | genId pre => exact hjob
  | persistArtifact a => exact hjob
  | _ => cases h

theorem Mild.spares (h : Mild j x) (c : Core) : Spares j c x := by
  have hchannels : ∀ w : World, ∀ ch ∈ c.engine.store.allChannelsForJob w j,
      ((coreStep c x).engine.store.getChannel ch.channelId).map Channel.standing =
        some ch.standing := by
    intro w ch hch
    rw [channel_mild h, (RunStore.mem_allChannelsForJob.mp hch).1]
    rfl
  obtain ⟨w, a⟩ := x
  cases a with
  | call r f =>
    refine ⟨?_, hchannels w⟩
    cases f with
    | markCompleted k o => exact fun hmem => h (List.mem_singleton.mp hmem).symm
    | createArtifact a => exact List.not_mem_nil
    | _ => cases h
  | expire r => cases h
  | hydrate => cases h
  | _ => exact True.intro

theorem spares_of_forall {A : World × Action → Prop} (hA : ∀ {x}, A x → ∀ c, Spares j c x)
    (h : ∀ x ∈ l, A x) : Meets coreStep (Spares j) c l :=
  Meets.of_forall (fun x hx c => hA (h x hx) c) c

theorem channel_mild_run (h : ∀ x ∈ l, Mild j x) (id : ChannelId) :
    (run coreStep c l).engine.store.getChannel id = c.engine.store.getChannel id := by
  induction l generalizing c with
  | nil => rfl
  | cons x l ih =>
    rw [run_cons, ih fun y hy => h y (List.mem_cons_of_mem x hy),
      channel_mild (h x List.mem_cons_self)]

theorem job_mild_run (h : ∀ x ∈ l, Mild j x) {job : Job}
    (hjob : c.engine.store.getJob j = some job) (hst : job.status ≠ .pending) :
    (run coreStep c l).engine.store.getJob j = some job := by
  induction l generalizing c with
  | nil => exact hjob
  | cons x l ih =>
    exact ih (fun y hy => h y (List.mem_cons_of_mem x hy))
      (job_mild (h x List.mem_cons_self) hjob hst)

theorem skips_mild (h : ∀ x ∈ l, Mild j x) (hskip : Skips j chId c.engine) :
    Skips j chId (run coreStep c l).engine := by
  rcases hskip with ⟨id, hid, ch, hch, hj, hopen⟩ | hst
  · exact Or.inl ⟨id, hid, ch, (channel_mild_run h id).trans hch, hj, hopen⟩
  · obtain ⟨job, hjob, hst⟩ := statusOf_eq_some.mp hst
    refine Or.inr ((statusOf_some (job_mild_run h hjob ?_)).trans (congrArg some hst))
    rw [hst]
    nofun

/-- The artifact is written before its record. -/
theorem writes_persistChannelArtifact (d : Daemon) (job : Job) (content : String) :
    ∃ l, (d.persistChannelArtifact w r job content).2.calls = d.calls ++ l ∧
      (d.persistChannelArtifact w r job content).2.core = run coreStep d.core l ∧
      (∀ x ∈ l, Mild j x) ∧ failedIn l = [] ∧
      Writes w r job content l (d.persistChannelArtifact w r job content).1 := by
  unfold persistChannelArtifact Writes
  dsimp only
  split
  · refine ⟨[_, _, _], by simp only [act, List.append_assoc]; rfl, rfl, ?_, rfl,
      _, List.mem_cons_of_mem _ List.mem_cons_self, rfl, rfl, rfl, rfl⟩
    intro x hx
    simp only [List.mem_cons, List.not_mem_nil, or_false] at hx
    rcases hx with rfl | rfl | rfl <;> exact True.intro
  · exact ⟨[_], rfl, rfl, fun x hx => List.mem_singleton.mp hx ▸ True.intro, rfl, rfl⟩

theorem deals_synthesizeChannelArtifact (d : Daemon) (k : JobId) (response : Option String) :
    Deals (Mild j) [] d (d.synthesizeChannelArtifact w r k response).2 := by
  unfold synthesizeChannelArtifact
  split
  · exact (Untouched.refl d).deals
  · obtain ⟨l, hcalls, hcore, hl, hf, _⟩ := writes_persistChannelArtifact (w := w) (r := r) d _ _
    exact ⟨l, hcalls, hcore, hl, hf⟩

/-- The completion of another participant. -/
theorem deals_completeParticipant (chId : ChannelId) (hk : k ≠ j) (d : Daemon) :
    Deals (Mild j) [] d (completeParticipant w r chId d k) := by
  unfold completeParticipant
  dsimp only
  split
  · have hdrop := (untouched_finalResponse w d k).trans
      (untouched_dropWorker (d.finalResponse w k).2 (workerName k))
    have hcomplete : ∀ (d : Daemon) (o : List ArtifactId),
        Deals (Mild j) [] d (d.act w (.call r (.markCompleted k o))) :=
      fun d o => .act hk rfl
    exact hdrop.deals.trans ((deals_synthesizeChannelArtifact _ k _).trans (hcomplete _ _))
  · exact (Untouched.refl d).deals

/-- A job that is to be skipped is. -/
theorem completeParticipant_skips (h : Skips j chId d.engine) :
    completeParticipant w r chId d j = d := by
  unfold completeParticipant
  refine if_neg ?_
  rw [Bool.and_eq_true, not_and, Bool.not_eq_true', Bool.not_eq_false]
  intro hrunning
  rcases h with ⟨id, hid, ch, hch, hj, hopen⟩ | hst
  · have hchId : ch.channelId = id := RunStore.channelId_of_getChannel hch
    refine List.any_eq_true.mpr ⟨ch, RunStore.mem_allChannelsForJob.mpr ⟨hchId.symm ▸ hch, hj⟩, ?_⟩
    rw [hchId, hopen, bne_iff_ne.mpr hid]
    rfl
  · obtain ⟨job, hjob, hst⟩ := statusOf_eq_some.mp hst
    rw [hjob, Option.map_some, Option.getD_some, hst] at hrunning
    cases hrunning

/-- The participants are gone through without a completion of the job. -/
theorem deals_participants (chId : ChannelId) (l : List JobId) : ∀ d : Daemon,
    j ∉ l ∨ Skips j chId d.engine →
      Deals (Mild j) [] d (l.foldl (completeParticipant w r chId) d) := by
  induction l with
  | nil => exact fun d _ => (Untouched.refl d).deals
  | cons k l ih =>
    intro d h
    by_cases hk : k = j
    · subst hk
      have hskip : Skips k chId d.engine := h.resolve_left fun hno => hno List.mem_cons_self
      rw [List.foldl_cons, completeParticipant_skips hskip]
      exact ih d (Or.inr hskip)
    · have hround := deals_completeParticipant (w := w) (r := r) chId hk d
      refine hround.trans (ih _ (h.imp (fun hno hmem => hno (List.mem_cons_of_mem k hmem)) ?_))
      intro hskip
      obtain ⟨l', _, hcore, hl', _⟩ := hround
      show Skips j chId (completeParticipant w r chId d k).core.engine
      rw [hcore]
      exact skips_mild hl' hskip

end

/-! ## The last channel -/

/-- How the artifact of a channel job shows a message. -/
def messageEntry (msg : ChannelMessage) : String :=
  "\n### " ++ msg.fromJob ++ " (round " ++ toString msg.round ++ ")\n" ++ msg.content ++ "\n"

/-- How the artifact of a channel job introduces a channel. -/
def channelHeading (channel : Channel) : String :=
  "\n## Channel " ++ channel.channelId ++ "\nMode: " ++ channel.mode.text ++ "\n"

/-- What the artifact of a channel job starts with. -/
def answerText : Option String → String
  | some response => .ofList (Text.trim response.toList) ++ "\n\n---\n\n"
  | none => ""

/-- The text starts with the response, if there is one, and lists the channels, each with
all of its messages in order. -/
def Recounts (channels : List Channel) (response : Option String) (content : String) : Prop :=
  ∃ body, content = answerText response ++ body ∧ ∀ ch ∈ channels, ∃ before after, body =
    before ++ channelHeading ch ++ String.join (ch.history.map messageEntry) ++ after

/-- The channels are all those the job takes part in, each once. -/
structure OrchestratorEngine.Lists (e : OrchestratorEngine) (j : JobId) (channels : List Channel) :
    Prop where
  mem : ∀ ch, ch ∈ channels ↔ e.store.getChannel ch.channelId = some ch ∧ j ∈ ch.participants
  nodup : (channels.map (·.channelId)).Nodup

/-- The response, if there is one, is what the job's worker answers, and not blank. -/
def Answered (w : World) (j : JobId) (response : Option String) : Prop :=
  ∀ t, response = some t →
    (Text.trim t.toList).isEmpty = false ∧ ∃ prompt, w.chat (workerName j) prompt = some t

/-- Among the actions is the writing of the artifact of a job and its channels. -/
def Leaves (w : World) (r : RunId) (j : JobId) (e e' : OrchestratorEngine)
    (l : List (World × Action)) (artifacts : List ArtifactId) : Prop :=
  ∃ job channels response, e.store.getJob j = some job ∧ e'.Lists j channels ∧
    Answered w j response ∧
    Recounts channels response (buildChannelArtifactContent job channels response) ∧
    Writes w r job (buildChannelArtifactContent job channels response) l artifacts

/-- A channel's section is its heading, its messages and, if there are none, a note. -/
theorem channelSection_eq (ch : Channel) : ∃ note,
    channelSection ch = channelHeading ch ++ String.join (ch.history.map messageEntry) ++ note := by
  unfold channelSection channelHeading
  cases hhistory : ch.history with
  | nil =>
    refine ⟨"\nNo routed messages were captured.\n", ?_⟩
    rw [List.isEmpty_nil, if_pos rfl, List.map_nil, String.join_nil, String.append_empty]
  | cons msg rest =>
    refine ⟨"", ?_⟩
    rw [String.append_empty]
    rfl

/-- The artifact of a channel job is complete. -/
theorem recounts_buildChannelArtifactContent (job : Job) (channels : List Channel)
    (response : Option String) :
    Recounts channels response (buildChannelArtifactContent job channels response) := by
  obtain ⟨head, hhead⟩ : ∃ head, buildChannelArtifactContent job channels response =
      answerText response ++ (head ++ String.join (channels.map channelSection)) := by
    refine ⟨"# Channel Output\n\nJob ID: " ++ job.jobId ++ "\nRole: " ++ job.role ++
      "\nInstruction: " ++ job.instruction ++ "\n", ?_⟩
    have hform : buildChannelArtifactContent job channels response = answerText response ++
        "# Channel Output\n\nJob ID: " ++ job.jobId ++ "\nRole: " ++ job.role ++
        "\nInstruction: " ++ job.instruction ++ "\n" ++
        String.join (channels.map channelSection) := by
      cases response <;> rfl
    rw [hform]
    simp only [String.append_assoc]
  refine ⟨_, hhead, fun ch hch => ?_⟩
  obtain ⟨l₁, l₂, rfl⟩ := List.append_of_mem hch
  obtain ⟨note, hsection⟩ := channelSection_eq ch
  refine ⟨head ++ String.join (l₁.map channelSection),
    note ++ String.join (l₂.map channelSection), ?_⟩
  rw [List.map_append, List.map_cons, String.join_append, String.join_cons, hsection]
  simp only [String.append_assoc]

section
variable {w : World} {r : RunId} {e e' e'' : OrchestratorEngine} {j : JobId} {chId : ChannelId}
  {d : Daemon} {l l' : List (World × Action)} {artifacts : List ArtifactId}

theorem lists_allChannelsForJob (w : World) (e : OrchestratorEngine) (j : JobId) :
    e.Lists j (e.store.allChannelsForJob w j) where
  mem := fun _ => RunStore.mem_allChannelsForJob
  nodup := (List.filter_sublist.map _).nodup (e.store.channels.valuesIn_nodup_keys _)

theorem Writes.mono {job : Job} {content : String} (h : Writes w r job content l artifacts)
    (hl : ∀ x ∈ l, x ∈ l') : Writes w r job content l' artifacts := by
  unfold Writes at h ⊢
  split
  · rename_i hok
    rw [if_pos hok] at h
    obtain ⟨artifact, hmem, hrest⟩ := h
    exact ⟨artifact, hl _ hmem, hrest⟩
  · rename_i hno
    rwa [if_neg hno] at h

theorem Leaves.mono (h : Leaves w r j e e' l artifacts) (hl : ∀ x ∈ l, x ∈ l')
    (hjob : e''.store.getJob j = e.store.getJob j) : Leaves w r j e'' e' l' artifacts := by
  obtain ⟨job, channels, response, hget, hlists, hanswered, hrecounts, hwrites⟩ := h
  exact ⟨job, channels, response, hjob.trans hget, hlists, hanswered, hrecounts, hwrites.mono hl⟩

/-- The channels may be looked at later, if those of the job are the same then. -/
theorem Leaves.after (h : Leaves w r j e e' l artifacts)
    (hchannel : ∀ id ch, j ∈ ch.participants →
      (e''.store.getChannel id = some ch ↔ e'.store.getChannel id = some ch)) :
    Leaves w r j e e'' l artifacts := by
  obtain ⟨job, channels, response, hget, hlists, hrest⟩ := h
  refine ⟨job, channels, response, hget, ⟨fun ch => ?_, hlists.nodup⟩, hrest⟩
  rw [hlists.mem]
  exact and_congr_left fun hj => (hchannel ch.channelId ch hj).symm

theorem answered_finalResponse (w : World) (d : Daemon) (j : JobId) :
    Answered w j (d.finalResponse w j).1 := by
  intro t ht
  unfold finalResponse at ht
  split at ht
  · split at ht
    · obtain ⟨hchat, hblank⟩ := Option.filter_eq_some_iff.mp ht
      exact ⟨Bool.not_eq_true' _ ▸ hblank, _, hchat⟩
    · cases ht
  · cases ht

/-- The channels of a job that are closed keep it no longer. -/
theorem Closing.noneOpen (h : Closing j e) (w : World) (chId : ChannelId) :
    (e.store.allChannelsForJob w j).any (fun ch => ch.channelId != chId && !ch.closed) = false := by
  rw [List.any_eq_false]
  intro ch hch
  obtain ⟨hget, hj⟩ := RunStore.mem_allChannelsForJob.mp hch
  rw [Bool.and_eq_true, not_and, Bool.not_eq_true', Bool.not_eq_false]
  intro _
  by_contra hopen
  exact h.allClosed.2 ch.channelId ⟨ch, hget, hj, Bool.eq_false_iff.mpr hopen⟩

/-- The job and all of its channels are there to make the artifact of. -/
theorem Closing.collects (h : Closing j d.engine) {job : Job}
    (hjob : d.engine.store.getJob j = some job) : d.collectJobChannels w j =
      some (job, d.engine.store.allChannelsForJob w j) := by
  unfold collectJobChannels
  rw [hjob]
  cases hall : d.engine.store.allChannelsForJob w j with
  | cons ch rest => rfl
  | nil =>
    obtain ⟨id, ch, hch, hj, _⟩ := h.allClosed.1
    have hid := RunStore.channelId_of_getChannel hch
    have hmem := (RunStore.mem_allChannelsForJob (w := w)).mpr ⟨hid.symm ▸ hch, hj⟩
    rw [hall] at hmem
    cases hmem

/-- A running participant all of whose channels are closed is completed, with the artifact
made of them. -/
theorem leaves_completeParticipant (chId : ChannelId) (h : Closing j d.engine) : ∃ l artifacts,
    (completeParticipant w r chId d j).calls =
      d.calls ++ (l ++ [(w, .call r (.markCompleted j artifacts))]) ∧
    (completeParticipant w r chId d j).core =
      run coreStep d.core (l ++ [(w, .call r (.markCompleted j artifacts))]) ∧
    (∀ x ∈ l, Mild j x) ∧ Leaves w r j d.engine d.engine l artifacts := by
  obtain ⟨job, hjob, hst⟩ := statusOf_eq_some.mp h.status
  have hrunning : ((d.engine.store.getJob j).map (fun j => j.status == .running)).getD false =
      true := by
    rw [hjob, Option.map_some, Option.getD_some, hst]
    rfl
  have hdrop := (untouched_finalResponse w d j).trans
    (untouched_dropWorker (d.finalResponse w j).2 (workerName j))
  unfold completeParticipant
  dsimp only
  rw [hrunning, h.noneOpen w chId, if_pos (show (true && !false) = true from rfl)]
  generalize ((d.finalResponse w j).2.stopWorker (workerName j)).removeManaged (workerName j) = d'
    at hdrop ⊢
  have hsynthesize : ∀ response, d'.synthesizeChannelArtifact w r j response =
      d'.persistChannelArtifact w r job
        (buildChannelArtifactContent job (d.engine.store.allChannelsForJob w j) response) := by
    intro response
    have hcollect := Closing.collects (w := w) (d := d') (hdrop.engine.symm ▸ h)
      (hdrop.engine.symm ▸ hjob)
    unfold synthesizeChannelArtifact
    rw [hcollect, hdrop.engine]
  rw [hsynthesize]
  obtain ⟨l, hcalls, hcore, hl, _, hwrites⟩ := writes_persistChannelArtifact (j := j) (w := w)
    (r := r) d' job (buildChannelArtifactContent job (d.engine.store.allChannelsForJob w j)
      (d.finalResponse w j).1)
  generalize d'.persistChannelArtifact w r job (buildChannelArtifactContent job
    (d.engine.store.allChannelsForJob w j) (d.finalResponse w j).1) = written at *
  refine ⟨l, written.1, ?_, ?_, hl, job, d.engine.store.allChannelsForJob w j,
    (d.finalResponse w j).1, hjob, lists_allChannelsForJob w d.engine j,
    answered_finalResponse w d j, recounts_buildChannelArtifactContent .., hwrites⟩
  · show written.2.calls ++ _ = _
    rw [hcalls, hdrop.2, List.append_assoc]
  · rw [run_append, ← hdrop.1, ← hcore]
    rfl

theorem Closing.mild (h : Closing j d.engine) {d' : Daemon}
    (hcore : d'.core = run coreStep d.core l) (hl : ∀ x ∈ l, Mild j x) :
    Closing j d'.engine ∧ d'.engine.store.getJob j = d.engine.store.getJob j ∧
      ∀ id, d'.engine.store.getChannel id = d.engine.store.getChannel id := by
  have hchannel : ∀ id, d'.engine.store.getChannel id = d.engine.store.getChannel id := by
    intro id
    show d'.core.engine.store.getChannel id = _
    rw [hcore]
    exact channel_mild_run hl id
  have hget : d'.engine.store.getJob j = d.engine.store.getJob j := by
    obtain ⟨job, hjob, hst⟩ := statusOf_eq_some.mp h.status
    show d'.core.engine.store.getJob j = _
    rw [hcore, hjob]
    refine job_mild_run hl hjob ?_
    rw [hst]
    nofun
  refine ⟨⟨(statusOf_congr hget).trans h.status, (allClosed_congr fun id b => ?_).mpr h.allClosed⟩,
    hget, hchannel⟩
  unfold Standing
  rw [hchannel]

theorem statusOf_completed (artifacts : List ArtifactId) {c : Core} {st : JobStatus}
    (h : c.engine.statusOf j = some st) :
    (coreStep c (w, .call r (.markCompleted j artifacts))).engine.statusOf j =
      some .completed := by
  obtain ⟨job, hjob, _⟩ := statusOf_eq_some.mp h
  exact statusOf_some (getJob_markCompleted_self w c.engine j artifacts hjob)

/-- One of the participants of the channel is completed in its turn, and only then. -/
theorem leaves_participants (chId : ChannelId) (participants : List JobId) (hj : j ∈ participants) :
    ∀ d : Daemon, Closing j d.engine → ∃ pre artifacts post,
      (participants.foldl (completeParticipant w r chId) d).calls =
        d.calls ++ (pre ++ (w, .call r (.markCompleted j artifacts)) :: post) ∧
      (participants.foldl (completeParticipant w r chId) d).core =
        run coreStep d.core (pre ++ (w, .call r (.markCompleted j artifacts)) :: post) ∧
      (∀ x ∈ pre, Mild j x) ∧ (∀ x ∈ post, Mild j x) ∧
      Leaves w r j d.engine d.engine pre artifacts := by
  induction participants with
  | nil => cases hj
  | cons k rest ih =>
    intro d hclosing
    rw [List.foldl_cons]
    by_cases hk : k = j
    · subst hk
      obtain ⟨pre, artifacts, hcalls, hcore, hpre, hleaves⟩ :=
        leaves_completeParticipant (w := w) (r := r) chId hclosing
      have hskip : Skips k chId (completeParticipant w r chId d k).engine := by
        right
        show (completeParticipant w r chId d k).core.engine.statusOf k = _
        obtain ⟨job, hjob, hst⟩ := statusOf_eq_some.mp hclosing.status
        have hstill := job_mild_run hpre hjob (by rw [hst]; nofun)
        rw [hcore, run_append]
        exact statusOf_completed artifacts (statusOf_some hstill)
      obtain ⟨post, hcalls', hcore', hpost, _⟩ :=
        deals_participants (w := w) (r := r) chId rest _ (Or.inr hskip)
      refine ⟨pre, artifacts, post, ?_, ?_, hpre, hpost, hleaves⟩
      · rw [hcalls', hcalls]
        simp only [List.append_assoc, List.singleton_append]
      · rw [hcore', hcore, ← run_append]
        simp only [List.append_assoc, List.singleton_append]
    · obtain ⟨l₁, hcalls₁, hcore₁, hl₁, _⟩ :=
        deals_completeParticipant (w := w) (r := r) chId hk d
      obtain ⟨hclosing₁, hget, hchannel⟩ := hclosing.mild hcore₁ hl₁
      obtain ⟨pre, artifacts, post, hcalls, hcore, hpre, hpost, hleaves⟩ :=
        ih ((List.mem_cons.mp hj).resolve_left (Ne.symm hk)) _ hclosing₁
      refine ⟨l₁ ++ pre, artifacts, post, ?_, ?_, ?_, hpost, ?_⟩
      · rw [hcalls, hcalls₁]
        simp only [List.append_assoc]
      · rw [hcore, hcore₁, ← run_append, List.append_assoc]
      · exact fun x hx => (List.mem_append.mp hx).elim (hl₁ x) (hpre x)
      · refine (hleaves.mono (fun x hx => List.mem_append_right l₁ hx) hget.symm).after ?_
        exact fun id ch _ => by rw [hchannel]

end

end ZeptoPM
