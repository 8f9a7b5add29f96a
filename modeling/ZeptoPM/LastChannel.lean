import ZeptoPM.Completions

/- How a channel job ends. A job that takes part in channels is completed in the step that
   closes the last of them, whichever of its channels close before and in whatever order,
   and only once, and until then keeps running, exactly if its worker does not report it
   completed (`completes_withLastChannel`). A step is followed from the call that closes a
   channel (`Closes`) through its participants to the end of the handler; what else happens
   in a run without failures spares the job. -/
namespace ZeptoPM
open OrchestratorEngine Daemon

/-! ## Channels that close -/

/-- The call closes the channel, which was open, and touches nothing else. -/
structure Closes (w : World) (e : OrchestratorEngine) (f : Call) (chId : ChannelId)
    (ch : Channel) : Prop where
  get : e.store.getChannel chId = some ch
  active : ch.active = true
  frame : Frame e (f.apply w e)
  stops : f.stops w e = []
  completes : ∀ r, completedBy (w, .call r f) = none
  closed : ∃ ch', (f.apply w e).store.getChannel chId = some ch' ∧
    ch'.standing = (ch.participants, true)
  other : ∀ id, id ≠ chId → (f.apply w e).store.getChannel id = e.store.getChannel id

/-- How the handler of a channel event goes: no channel is closed, or one is and its
participants are gone through. -/
inductive Handles (w : World) (d d' : Daemon) : Prop where
  | calm (r : RunId) (f : Call) (d₁ : Daemon) (hspares : ∀ j, Spares j d.core (w, .call r f))
      (hsame : Untouched (d.act w (.call r f)) d₁) (heq : d' = finish w r d₁)
  | closing (r : RunId) (f : Call) (chId : ChannelId) (ch : Channel)
      (hcloses : Closes w d.engine f chId ch)
      (heq : d' = finish w r
        ((d.act w (.call r f)).completeClosedChannelParticipants w r chId))

section
variable {w : World} {e : OrchestratorEngine} {db : Option SqlitePersistence} {r : RunId}
  {chId : ChannelId} {fromJob content : String}

theorem spares_of_standing {f : Call} (hstops : f.stops w e = [])
    (h : ∀ id ch, e.store.getChannel id = some ch →
      ((f.apply w e).store.getChannel id).map Channel.standing = some ch.standing) (j : JobId) :
    Spares j ⟨e, db⟩ (w, .call r f) := by
  refine ⟨?_, fun ch hch => h ch.channelId ch (RunStore.mem_allChannelsForJob.mp hch).1⟩
  rw [hstops]
  exact List.not_mem_nil

theorem closes_route {id : ChannelId}
    (h : (e.routeChannelMessage w chId fromJob content).1 = .close id) :
    ∃ ch, Closes w e (.routeChannelMessage chId fromJob content) chId ch := by
  by_cases hears : ∃ ch, e.store.getChannel chId = some ch ∧ ch.Hears fromJob
  · obtain ⟨ch, hget, hears⟩ := hears
    obtain ⟨haction, hchannels⟩ := route_recorded w e content hget hears
    have hlast : ch.lastMessage = true := by
      by_contra hno
      rw [haction, Channel.routeAction, if_neg hno] at h
      split at h
      · cases h
      · split at h <;> cases h
    refine ⟨ch, hget, hears.1, (channelStep_route chId fromJob content).frame, rfl, fun _ => rfl,
      ⟨_, (hchannels chId).trans (if_pos rfl), ?_⟩, fun k hk => (hchannels k).trans (if_neg hk)⟩
    rw [Channel.routed, if_pos hears, if_pos hlast]
    rfl
  · rw [route_refused w e content fun ch hget h => hears ⟨ch, hget, h⟩] at h
    cases h

theorem spares_route (h : ∀ id, (e.routeChannelMessage w chId fromJob content).1 ≠ .close id)
    (j : JobId) : Spares j ⟨e, db⟩ (w, .call r (.routeChannelMessage chId fromJob content)) := by
  refine spares_of_standing rfl (fun id ch hch => ?_) j
  show ((e.routeChannelMessage w chId fromJob content).2.store.getChannel id).map _ = _
  by_cases hears : ∃ ch, e.store.getChannel chId = some ch ∧ ch.Hears fromJob
  · obtain ⟨ch₀, hget, hears⟩ := hears
    obtain ⟨haction, hchannels⟩ := route_recorded w e content hget hears
    have hlast : ¬ ch₀.lastMessage = true := by
      intro hlast
      rw [Channel.routeAction, if_pos hlast] at haction
      exact h _ haction
    rw [hchannels]
    by_cases hid : id = chId
    · subst hid
      cases hch.symm.trans hget
      rw [if_pos rfl, Channel.routed, if_pos hears, if_neg hlast]
      rfl
    · rw [if_neg hid, hch]
      rfl
  · rw [route_refused w e content fun ch hget h => hears ⟨ch, hget, h⟩, hch]
    rfl

theorem closes_done {id : ChannelId} (h : (e.handleChannelDone chId fromJob).1 = .close id) :
    ∃ ch, Closes w e (.handleChannelDone chId fromJob) chId ch := by
  by_cases hends : ∃ ch, e.store.getChannel chId = some ch ∧ ch.Ends fromJob
  · obtain ⟨ch, hget, hends⟩ := hends
    have hchannels := getChannel_done e chId fromJob
    refine ⟨ch, hget, hends.1, (channelStep_done chId fromJob).frame, rfl, fun _ => rfl,
      ⟨ch.close, ?_, rfl⟩, fun k hk => (hchannels k).trans (if_neg hk)⟩
    refine (hchannels chId).trans ?_
    rw [if_pos rfl, hget, Option.map_some, if_pos hends]
  · rw [done_refused e fun ch hget h => hends ⟨ch, hget, h⟩] at h
    cases h

theorem spares_done (h : ∀ id, (e.handleChannelDone chId fromJob).1 ≠ .close id) (j : JobId) :
    Spares j ⟨e, db⟩ (w, .call r (.handleChannelDone chId fromJob)) := by
  refine spares_of_standing rfl (fun id ch hch => ?_) j
  show ((e.handleChannelDone chId fromJob).2.store.getChannel id).map _ = _
  by_cases hends : ∃ ch, e.store.getChannel chId = some ch ∧ ch.Ends fromJob
  · obtain ⟨ch₀, hget, hends⟩ := hends
    exact absurd (congrArg Prod.fst (done_closes e hget hends)) (h chId)
  · rw [done_refused e fun ch hget h => hends ⟨ch, hget, h⟩, hch]
    rfl

theorem handles_channelMessage (d : Daemon) :
    Handles w d (d.channelMessage w chId fromJob content) := by
  have hcalm : (∀ id, (d.engine.routeChannelMessage w chId fromJob content).1 ≠ .close id) →
      ∀ j, Spares j d.core (w, .call (d.channelRunId chId)
        (.routeChannelMessage chId fromJob content)) :=
    fun h j => spares_route h j
  unfold channelMessage
  dsimp only
  split
  · rename_i haction
    refine .calm _ _ _ (hcalm fun id hid => ?_) (untouched_routeTo ..) rfl
    rw [haction] at hid
    cases hid
  · rename_i haction
    refine .calm _ _ _ (hcalm fun id hid => ?_) (untouched_foldl (untouched_routeTo _ _) _ _) rfl
    rw [haction] at hid
    cases hid
  · rename_i id haction
    obtain rfl := route_close haction
    obtain ⟨ch, hcloses⟩ := closes_route haction
    exact .closing _ _ _ ch hcloses rfl
  · rename_i hother
    exact .calm _ _ _ (hcalm fun id hid => hother id hid) (.refl _) rfl

theorem handles_channelDone (d : Daemon) : Handles w d (d.channelDone w chId fromJob) := by
  unfold channelDone
  dsimp only
  split
  · rename_i id haction
    obtain ⟨ch, hcloses⟩ := closes_done (w := w) haction
    exact .closing _ _ _ ch hcloses rfl
  · rename_i hother
    exact .calm _ _ _ (fun j => spares_done (fun id hid => hother id hid) j) (.refl _) rfl

end

/-! ## One channel event -/

/-- Among the actions of a step from `e` to `e'` is the completion of the job, after its
artifact has been made of its channels as they are from then on. -/
def Concludes (w : World) (j : JobId) (e e' : OrchestratorEngine) (l : List (World × Action)) :
    Prop :=
  ∃ r pre artifacts post, l = pre ++ (w, .call r (.markCompleted j artifacts)) :: post ∧
    Leaves w r j e e' pre artifacts

/-- What a step makes of a job that stands at `n`. -/
structure Onward (w : World) (j : JobId) (n : Nat) (e e' : OrchestratorEngine)
    (l : List (World × Action)) : Prop where
  queues : e'.Queues j
  course : Course j e' (n + completionsFrom j e l)
  started : ¬ e.Unstarted j → ¬ e'.Unstarted j
  concludes : completionsFrom j e l ≠ 0 → Concludes w j e e' l

section
variable {w : World} {j : JobId} {n : Nat} {c : Core} {x : World × Action}
  {l : List (World × Action)} {d d' : Daemon}

theorem channel_ending (h : Ending w x) (k : ChannelId) : ∃ g : Channel → Channel,
    (coreStep c x).engine.store.getChannel k = (c.engine.store.getChannel k).map g ∧
      ∀ ch, (g ch).standing = ch.standing ∧ (ch.closed = true → g ch = ch) := by
  obtain ⟨_, hdeals, hfailed, hcloses⟩ := h
  obtain ⟨w, a⟩ := x
  have hsame : (coreStep c (w, a)).engine.store.getChannel k = c.engine.store.getChannel k →
      ∃ g : Channel → Channel,
        (coreStep c (w, a)).engine.store.getChannel k = (c.engine.store.getChannel k).map g ∧
        ∀ ch, (g ch).standing = ch.standing ∧ (ch.closed = true → g ch = ch) :=
    fun heq => ⟨id, by rw [heq, Option.map_id_fun, id], fun ch => ⟨rfl, fun _ => rfl⟩⟩
  cases a with
  | persistRunState r => exact hsame rfl
  | call r f =>
    cases f with
    | startNext => exact hsame (getChannel_spared w c.engine (f := .startNext) rfl k)
    | activateReadyChannels =>
      refine ⟨_, getChannel_activate w c.engine k, fun ch => ?_⟩
      split
      · rename_i hact
        simp only [Bool.and_eq_true, activatable, Bool.not_eq_true'] at hact
        refine ⟨rfl, fun hclosed => ?_⟩
        rw [hact.2.1.2] at hclosed
        cases hclosed
      · exact ⟨rfl, fun _ => rfl⟩
    | markFailed j err => cases hfailed
    | handleChannelPeerFailure chId j => cases hcloses
    | _ => cases hdeals
  | _ => cases hdeals

theorem Ending.spares (h : Ending w x) (c : Core) : Spares j c x := by
  have hchannels : ∀ w : World, ∀ ch ∈ c.engine.store.allChannelsForJob w j,
      ((coreStep c x).engine.store.getChannel ch.channelId).map Channel.standing =
        some ch.standing := by
    intro w ch hch
    obtain ⟨g, hget, hg⟩ := channel_ending (c := c) h ch.channelId
    rw [hget, (RunStore.mem_allChannelsForJob.mp hch).1]
    exact congrArg some (hg ch).1
  obtain ⟨_, hdeals, hfailed, hcloses⟩ := h
  obtain ⟨w, a⟩ := x
  cases a with
  | call r f =>
    refine ⟨?_, hchannels w⟩
    cases f with
    | startNext => exact List.not_mem_nil
    | activateReadyChannels => exact List.not_mem_nil
    | markFailed k err => cases hfailed
    | handleChannelPeerFailure id k => cases hcloses
    | _ => cases hdeals
  | persistRunState r => exact True.intro
  | _ => cases hdeals

/-- The channels of a job that are all closed stay as they are. -/
theorem closed_ending_run (h : ∀ x ∈ l, Ending w x) : ∀ {c : Core},
    (∀ id, ¬ c.engine.Standing j id false) → ∀ id ch, j ∈ ch.participants →
      ((run coreStep c l).engine.store.getChannel id = some ch ↔
        c.engine.store.getChannel id = some ch) := by
  induction l with
  | nil => exact fun _ _ _ _ => Iff.rfl
  | cons x l ih =>
    intro c hclosed id ch hj
    have hstep : ∀ id ch, j ∈ ch.participants →
        ((coreStep c x).engine.store.getChannel id = some ch ↔
          c.engine.store.getChannel id = some ch) := by
      intro id ch hj
      obtain ⟨g, hget, hg⟩ := channel_ending (c := c) (h x List.mem_cons_self) id
      rw [hget, Option.map_eq_some_iff]
      have hkept : ∀ ch₀, c.engine.store.getChannel id = some ch₀ → j ∈ ch₀.participants →
          g ch₀ = ch₀ := by
        intro ch₀ hch₀ hj₀
        refine (hg ch₀).2 ?_
        by_contra hopen
        exact hclosed id ⟨ch₀, hch₀, hj₀, Bool.eq_false_iff.mpr hopen⟩
      constructor
      · rintro ⟨ch₀, hch₀, rfl⟩
        have hparts : (g ch₀).participants = ch₀.participants := congrArg Prod.fst (hg ch₀).1
        rw [hkept ch₀ hch₀ (hparts ▸ hj)]
        exact hch₀
      · exact fun hch => ⟨ch, hch, hkept ch hch hj⟩
    rw [run_cons, ih (fun y hy => h y (List.mem_cons_of_mem x hy)) ?_ id ch hj]
    · exact hstep id ch hj
    · rintro id ⟨ch, hch, hj, hopen⟩
      exact hclosed id ⟨ch, (hstep id ch hj).mp hch, hj, hopen⟩

theorem completionsOf_append (l₁ l₂ : List (World × Action)) :
    completionsOf j (l₁ ++ l₂) = completionsOf j l₁ + completionsOf j l₂ := by
  unfold completionsOf
  rw [List.filterMap_append, List.count_append]

/-- A job stays where it is, or is created, released or started, in spared actions. -/
theorem onward_spared {w : World} (hs : Sound c) (hq : c.engine.Queues j)
    (hc : Course j c.engine n) (hl : Meets coreStep Legal c l)
    (h : Meets coreStep (Spares j) c l) :
    Onward w j n c.engine (run coreStep c l).engine l := by
  have hnone : completionsFrom j c.engine l = 0 := completionsFrom_of_none (completionsOf_spared h)
  have hmeets := Meets.and.mpr ⟨hl, h⟩
  obtain ⟨_, hqueues, hcourse⟩ := spared_run (P := fun e => Course j e n)
    (fun e e' hc hs => hc.spared hs) hs hq hc hmeets
  refine ⟨hqueues, ?_, fun hstarted => ?_, fun hno => absurd hnone hno⟩
  · rw [hnone]
    exact hcourse
  · exact (spared_run (P := fun e => ¬ e.Unstarted j)
      (fun e e' hstarted hs => hs.started hstarted) hs hq hstarted hmeets).2.2

end

section
variable {w : World} {j : JobId} {n : Nat} {r : RunId} {f : Call} {chId : ChannelId}
  {ch : Channel} {d d' : Daemon}

/-- The call that closes a channel leaves the other channels to their jobs. -/
theorem Closes.spares {db : Option SqlitePersistence} {e : OrchestratorEngine}
    (h : Closes w e f chId ch) (hj : j ∉ ch.participants) : Spares j ⟨e, db⟩ (w, .call r f) := by
  refine ⟨?_, fun ch₀ hch₀ => ?_⟩
  · rw [h.stops]
    exact List.not_mem_nil
  · obtain ⟨hget, hj₀⟩ := RunStore.mem_allChannelsForJob.mp hch₀
    have hne : ch₀.channelId ≠ chId := by
      intro heq
      rw [heq] at hget
      cases hget.symm.trans h.get
      exact hj hj₀
    show ((f.apply w e).store.getChannel ch₀.channelId).map _ = _
    rw [h.other _ hne, hget]
    rfl

/-- The channel of a participant that still runs has been one of its open ones. -/
theorem Closes.standing {e : OrchestratorEngine} (h : Closes w e f chId ch) (id : ChannelId) :
    (f.apply w e).Standing j id false ↔ e.Standing j id false ∧ id ≠ chId := by
  obtain ⟨ch', hget', hstanding⟩ := h.closed
  constructor
  · rintro ⟨ch₁, hget, hj, hopen⟩
    by_cases hid : id = chId
    · subst hid
      cases hget.symm.trans hget'
      rw [show ch'.closed = true from congrArg Prod.snd hstanding] at hopen
      cases hopen
    · exact ⟨⟨ch₁, (h.other id hid).symm.trans hget, hj, hopen⟩, hid⟩
  · rintro ⟨⟨ch₁, hget, hj, hopen⟩, hid⟩
    exact ⟨ch₁, (h.other id hid).trans hget, hj, hopen⟩

theorem Closes.participant {e : OrchestratorEngine} (h : Closes w e f chId ch)
    (hj : j ∈ ch.participants) : (f.apply w e).Standing j chId true := by
  obtain ⟨ch', hget', hstanding⟩ := h.closed
  have hparts : ch'.participants = ch.participants := congrArg Prod.fst hstanding
  exact ⟨ch', hget', hparts ▸ hj, congrArg Prod.snd hstanding⟩

/-- Only a participant that is at work can see one of its channels close. -/
theorem Course.working_of_closes {e : OrchestratorEngine} (hc : Course j e n)
    (h : Closes w e f chId ch) (hj : j ∈ ch.participants) (hshut : ch.Shut) :
    n = 0 ∧ e.statusOf j = some .running := by
  cases hc with
  | waiting _ hun =>
    cases h.active.symm.trans (hun chId ch h.get hj).1
  | working hst _ => exact ⟨rfl, hst⟩
  | done _ hover =>
    exfalso
    have hclosed : ch.closed = true := by
      by_contra hopen
      exact hover.2 chId ⟨ch, h.get, hj, Bool.eq_false_iff.mpr hopen⟩
    cases h.active.symm.trans (hshut hclosed)

/-- The actions with which a channel is closed, from the call to the end of the handler. -/
theorem calls_closing (hcloses : Closes w d.engine f chId ch) (hempty : d.calls = [])
    (heq : d' = finish w r ((d.act w (.call r f)).completeClosedChannelParticipants w r chId))
    {l₁ : List (World × Action)}
    (hl₁ : (ch.participants.foldl (completeParticipant w r chId) (d.act w (.call r f))).calls =
      (d.act w (.call r f)).calls ++ l₁) :
    ∃ l₂, d'.calls = (w, .call r f) :: (l₁ ++ l₂) ∧ ∀ x ∈ l₂, Ending w x := by
  obtain ⟨ch', hget', hstanding⟩ := hcloses.closed
  have hparts : ch'.participants = ch.participants := congrArg Prod.fst hstanding
  have hfold : (d.act w (.call r f)).completeClosedChannelParticipants w r chId =
      ch.participants.foldl (completeParticipant w r chId) (d.act w (.call r f)) := by
    unfold completeClosedChannelParticipants
    rw [show (d.act w (.call r f)).engine.store.getChannel chId = some ch' from hget']
    dsimp only
    rw [hparts]
  obtain ⟨l₂, hcalls, _, hl₂, _⟩ := deals_finish (w := w) (r := r)
    ((d.act w (.call r f)).completeClosedChannelParticipants w r chId)
  refine ⟨l₂, ?_, hl₂⟩
  rw [heq, hcalls, hfold, hl₁]
  show d.calls ++ _ ++ _ ++ _ = _
  rw [hempty, List.nil_append, List.append_assoc]
  rfl

/-- The rest of a step whose first action closes the last channel of the job. -/
theorem onward_closing {c : Core} {pre post l : List (World × Action)} {x : World × Action}
    {artifacts : List ArtifactId} (hx : x = (w, .call r (.markCompleted j artifacts)))
    (hs : Sound c) (hq : c.engine.Queues j) (h : Closing j c.engine) (hpre : ∀ x ∈ pre, Mild j x)
    (hpost : ∀ x ∈ post, Mild j x) (hending : ∀ x ∈ l, Ending w x)
    (hl : Meets coreStep Legal c (pre ++ x :: (post ++ l))) :
    let c' := run coreStep c (pre ++ x :: (post ++ l))
    c'.engine.Queues j ∧ Course j c'.engine 1 ∧
      completionsOf j (pre ++ x :: (post ++ l)) = 1 ∧
      ∀ id ch, j ∈ ch.participants → (c'.engine.store.getChannel id = some ch ↔
        c.engine.store.getChannel id = some ch) := by
  obtain ⟨hlpre, hlcall, hlrest⟩ := Meets.append.mp hl
  -- spared up to its completion, and again after it
  have hspre : Meets coreStep (Spares j) c pre := spares_of_forall (fun hx => hx.spares) hpre
  obtain ⟨hs₁, hq₁, hclosing⟩ := spared_run (P := Closing j) (fun e e' h hs => h.spared hs)
    hs hq h (Meets.and.mpr ⟨hlpre, hspre⟩)
  have hchannel₁ := channel_mild_run (c := c) hpre
  dsimp only
  rw [run_append, run_cons, completionsOf_append, completionsOf_spared hspre]
  generalize run coreStep c pre = c₁ at *
  have hs₂ : Sound (coreStep c₁ x) := sound_act hs₁ hlcall
  subst hx
  have hnotReady : c₁.engine.statusOf j ≠ some .ready := by
    rw [hclosing.status]
    nofun
  have hq₂ := queues_markCompleted (w := w) j artifacts hq₁ fun _ => hnotReady
  have hst₂ := statusOf_completed (w := w) (r := r) artifacts hclosing.status
  have hchannel₂ : ∀ k, (coreStep c₁ (w, .call r (.markCompleted j artifacts))
      ).engine.store.getChannel k = c.engine.store.getChannel k := fun k =>
    (getChannel_spared w c₁.engine (f := .markCompleted j artifacts) rfl k).trans (hchannel₁ k)
  have hover : ∀ {c' : Core}, (∀ k, c'.engine.store.getChannel k = c.engine.store.getChannel k) →
      c'.engine.AllClosed j := by
    intro c' hchannel
    refine (allClosed_congr fun id b => ?_).mpr h.allClosed
    unfold Standing
    rw [hchannel]
  have hspost : Meets coreStep (Spares j)
      (coreStep c₁ (w, .call r (.markCompleted j artifacts))) (post ++ l) :=
    Meets.append.mpr ⟨spares_of_forall (fun hx => hx.spares) hpost,
      spares_of_forall (fun hx => hx.spares) hending⟩
  obtain ⟨_, hq₃, hcourse⟩ := spared_run (P := fun e => Course j e 1)
    (fun e e' hc hs => hc.spared hs) hs₂ hq₂ (.done hst₂ (hover hchannel₂))
    (Meets.and.mpr ⟨hlrest, hspost⟩)
  refine ⟨hq₃, hcourse, ?_, fun id ch hj => ?_⟩
  · have hrest := completionsOf_spared hspost
    unfold completionsOf at hrest ⊢
    show 0 + (j :: (post ++ l).filterMap completedBy).count j = 1
    rw [List.count_cons_self, hrest]
  · have hchannel₃ : ∀ k, (run coreStep (coreStep c₁ (w, .call r (.markCompleted j artifacts)))
        post).engine.store.getChannel k = c.engine.store.getChannel k := fun k =>
      (channel_mild_run hpost k).trans (hchannel₂ k)
    rw [run_append, closed_ending_run hending (hover hchannel₃).2 id ch hj, hchannel₃]

theorem Closes.statusOf {e : OrchestratorEngine} (h : Closes w e f chId ch) :
    (f.apply w e).statusOf j = e.statusOf j := statusOf_congr (h.frame.getJob j)

theorem Closes.queues {e : OrchestratorEngine} (h : Closes w e f chId ch) (hq : e.Queues j) :
    (f.apply w e).Queues j := queues_congr hq h.frame.readyQueue h.statusOf

theorem Closes.completionsOf {e : OrchestratorEngine} (h : Closes w e f chId ch)
    (l : List (World × Action)) :
    completionsOf j ((w, .call r f) :: l) = completionsOf j l := by
  unfold ZeptoPM.completionsOf
  rw [List.filterMap_cons_none (h.completes r)]

/-- A participant that is in another open channel keeps running. -/
theorem onward_otherOpen (hcloses : Closes w d.engine f chId ch) (hempty : d.calls = [])
    (heq : d' = finish w r ((d.act w (.call r f)).completeClosedChannelParticipants w r chId))
    (hs : Sound d.core) (hq : d.engine.Queues j) (hrun : d.engine.statusOf j = some .running)
    (hopen : ∃ id, id ≠ chId ∧ (f.apply w d.engine).Standing j id false)
    (hl : Meets coreStep Legal d.core d'.calls) :
    Onward w j 0 d.engine (run coreStep d.core d'.calls).engine d'.calls := by
  obtain ⟨l₁, hcalls₁, _, hl₁, _⟩ := deals_participants (w := w) (r := r) chId ch.participants
    (d.act w (.call r f)) (Or.inr (Or.inl hopen))
  obtain ⟨l₂, hcalls, hl₂⟩ := calls_closing hcloses hempty heq hcalls₁
  rw [hcalls] at hl ⊢
  have hspares : Meets coreStep (Spares j) (coreStep d.core (w, .call r f)) (l₁ ++ l₂) :=
    Meets.append.mpr ⟨spares_of_forall (fun hx => hx.spares) hl₁,
      spares_of_forall (fun hx => hx.spares) hl₂⟩
  have hrun₁ : (coreStep d.core (w, .call r f)).engine.statusOf j = some .running :=
    hcloses.statusOf.trans hrun
  have hnot : ¬ (coreStep d.core (w, .call r f)).engine.AllClosed j := by
    obtain ⟨id, _, hstanding⟩ := hopen
    exact fun hover => hover.2 id hstanding
  have hrest := onward_spared (w := w) (sound_act hs hl.1) (hcloses.queues hq)
    (.working hrun₁ hnot) hl.2 hspares
  have hcourse := hrest.course
  have hnone := completionsOf_spared hspares
  rw [← hcloses.completionsOf (r := r)] at hnone
  refine ⟨hrest.queues, ?_, fun _ => hrest.started (not_unstarted (Or.inl hrun₁)), fun hno => ?_⟩
  · rw [completionsFrom_of_none hnone]
    rw [completionsFrom_of_none (completionsOf_spared hspares)] at hcourse
    exact hcourse
  · exact absurd (completionsFrom_of_none hnone) hno

/-- A participant whose last channel is closed is completed. -/
theorem onward_lastClosed (hcloses : Closes w d.engine f chId ch) (hempty : d.calls = [])
    (heq : d' = finish w r ((d.act w (.call r f)).completeClosedChannelParticipants w r chId))
    (hs : Sound d.core) (hq : d.engine.Queues j) (hrun : d.engine.statusOf j = some .running)
    (hj : j ∈ ch.participants) (hover : (f.apply w d.engine).AllClosed j)
    (hl : Meets coreStep Legal d.core d'.calls) :
    Onward w j 0 d.engine (run coreStep d.core d'.calls).engine d'.calls := by
  have hclosing : Closing j (d.act w (.call r f)).engine := ⟨hcloses.statusOf.trans hrun, hover⟩
  obtain ⟨pre, artifacts, post, hcalls₁, _, hpre, hpost, hleaves⟩ :=
    leaves_participants (w := w) (r := r) chId ch.participants hj _ hclosing
  obtain ⟨l₂, hcalls, hl₂⟩ := calls_closing hcloses hempty heq hcalls₁
  rw [List.append_assoc, List.cons_append] at hcalls
  rw [hcalls] at hl ⊢
  obtain ⟨hqueues, hcourse, hone, hchannel⟩ := onward_closing rfl (sound_act hs hl.1)
    (hcloses.queues hq) hclosing hpre hpost hl₂ hl.2
  have hknown : d.engine.statusOf j ≠ none := by
    rw [hrun]
    nofun
  refine ⟨hqueues, ?_, fun _ => ?_, fun _ => ?_⟩
  · rw [completionsFrom_of_known hknown, hcloses.completionsOf, hone]
    exact hcourse
  · cases hcourse with
    | done hst _ => exact not_unstarted (Or.inr hst)
  · refine ⟨r, (w, .call r f) :: pre, artifacts, post ++ l₂, rfl, ?_⟩
    exact (hleaves.mono (fun x hx => List.mem_cons_of_mem _ hx)
      (hcloses.frame.getJob j).symm).after hchannel

/-- A step that closes no channel of the job spares it. -/
theorem spares_handled (hh : Handles w d d') (hempty : d.calls = [])
    (hno : ∀ r f chId ch, Closes w d.engine f chId ch →
      d' = finish w r ((d.act w (.call r f)).completeClosedChannelParticipants w r chId) →
        j ∉ ch.participants) :
    Meets coreStep (Spares j) d.core d'.calls := by
  cases hh with
  | calm r f d₁ hspares hsame heq =>
    obtain ⟨l₂, hcalls, _, hl₂, _⟩ := deals_finish (w := w) (r := r) d₁
    have hcalls : d'.calls = (w, .call r f) :: l₂ := by
      rw [heq, hcalls, hsame.2]
      show d.calls ++ _ ++ _ = _
      rw [hempty]
      rfl
    rw [hcalls]
    exact ⟨hspares j, spares_of_forall (fun hx => hx.spares) hl₂⟩
  | closing r f chId ch hcloses heq =>
    have hj := hno r f chId ch hcloses heq
    obtain ⟨l₁, hcalls₁, _, hl₁, _⟩ := deals_participants (w := w) (r := r) chId
      ch.participants (d.act w (.call r f)) (Or.inl hj)
    obtain ⟨l₂, hcalls, hl₂⟩ := calls_closing hcloses hempty heq hcalls₁
    rw [hcalls]
    exact ⟨hcloses.spares hj, Meets.append.mpr ⟨spares_of_forall (fun hx => hx.spares) hl₁,
      spares_of_forall (fun hx => hx.spares) hl₂⟩⟩

/-- A channel event advances a job by its completion, if the last of its channels closes. -/
theorem onward_handled (hh : Handles w d d') (hempty : d.calls = [])
    (hs : Sound d.core) (hshut : EveryChannel Channel.Shut d.core) (hq : d.engine.Queues j)
    (hc : Course j d.engine n) (hl : Meets coreStep Legal d.core d'.calls) :
    Onward w j n d.engine (run coreStep d.core d'.calls).engine d'.calls := by
  by_cases hclosing : ∃ r f chId ch, Closes w d.engine f chId ch ∧
      d' = finish w r ((d.act w (.call r f)).completeClosedChannelParticipants w r chId) ∧
        j ∈ ch.participants
  · obtain ⟨r, f, chId, ch, hcloses, heq, hj⟩ := hclosing
    -- the job was running, and goes on only if another of its channels is open
    obtain ⟨rfl, hrun⟩ := hc.working_of_closes hcloses hj (hshut.engine chId ch hcloses.get)
    by_cases hopen : ∃ id, id ≠ chId ∧ (f.apply w d.engine).Standing j id false
    · exact onward_otherOpen hcloses hempty heq hs hq hrun hopen hl
    · refine onward_lastClosed hcloses hempty heq hs hq hrun hj
        ⟨⟨chId, hcloses.participant hj⟩, fun id hstanding => hopen ⟨id, ?_, hstanding⟩⟩ hl
      exact ((hcloses.standing id).mp hstanding).2
  · refine onward_spared hs hq hc hl (spares_handled hh hempty ?_)
    exact fun r f chId ch hcloses heq hj => hclosing ⟨r, f, chId, ch, hcloses, heq, hj⟩

end

/-! ## Steps and runs -/

section
variable {j : JobId} {n : Nat} {d : Daemon} {x : World × Input}

/-- The handlers of channel events. -/
theorem handles_event {w : World} {d d₀ : Daemon} {i : Input}
    (hd₀ : d₀ = { d with sent := [], calls := [] }) (halive : d.alive = true)
    (hover : i.overChannel = true) : Handles w d₀ (d.step (w, i)) := by
  rw [step_of_alive hd₀ halive]
  cases i with
  | event v =>
    have htype : v.strOr "type" "" = "channel_message" ∨ v.strOr "type" "" = "channel_done" := by
      simpa [Input.overChannel] using hover
    dsimp only [handle, handleEvent]
    rcases htype with htype | htype
    · rw [htype]
      exact handles_channelMessage d₀
    · rw [htype]
      exact handles_channelDone d₀
  | _ => cases hover

/-- A report is no news of a channel. -/
theorem overChannel_of_completes {i : Input} (h : i.completes j = true) :
    i.overChannel = false := by
  cases i with
  | event v =>
    obtain ⟨htype, _⟩ : v.strOr "type" "" = "job_completed" ∧ v.strOr "job_id" "" = j := by
      simpa [Input.completes] using h
    rw [Input.overChannel, htype]
    rfl
  | _ => cases h

/-- Where no failure concerns it, a job that is there stays in its channels. -/
theorem remains_step (hs : Sound d.core) (hu : Faultless j d x) (hover : x.2.overChannel = false)
    (hknown : d.engine.statusOf j ≠ none) : Remains j d.engine (d.step x).engine := by
  obtain ⟨hcore, hl, _, _⟩ := step_takes x.2 ⟨hs, hu.1⟩
  show Remains j d.engine (d.step x).core.engine
  rw [hcore]
  exact remains_run hs (Meets.and.mpr ⟨hl, hu.2 hover⟩) hknown

/-- A job that has been left out of all channels gets into none. -/
theorem outside_step (hs : Sound d.core) (hout : d.engine.Outside j) (hu : Faultless j d x) :
    (d.step x).engine.Outside j := by
  cases hover : x.2.overChannel with
  | false => exact hout.remains (remains_step hs hu hover hout.known)
  | true =>
    obtain ⟨w, i⟩ := x
    obtain ⟨hcore, hl, _, _⟩ := step_takes i ⟨hs, hu.1⟩
    have hspares : Meets coreStep (Spares j) d.core (d.step (w, i)).calls := by
      cases halive : d.alive with
      | false =>
        have hcalls : (d.step (w, i)).calls = [] := by
          rw [step_of_dead rfl halive]
          cases i with
          | event v => rfl
          | _ => cases hover
        rw [hcalls]
        exact True.intro
      | true =>
        refine spares_handled (d := { d with sent := [], calls := [] })
          (handles_event rfl halive hover) rfl fun r f chId ch hcloses _ hj => ?_
        exact hout.standing chId ch.closed ⟨ch, hcloses.get, hj, rfl⟩
    show (d.step (w, i)).core.engine.Outside j
    rw [hcore]
    exact hout.remains (remains_run hs
      (Meets.and.mpr ⟨hl, hspares.mono fun c x h => Or.inl h⟩) hout.known)

/-- A report of a job that is not there is of no consequence. -/
theorem onward_unknown (hs : Sound d.core) (hq : d.engine.Queues j) (hc : Course j d.engine n)
    (hu : Faultless j d x) (halive : d.alive = true) (hreport : x.2.completes j = true)
    (hnone : d.engine.statusOf j = none) :
    Onward x.1 j n d.engine (d.step x).engine (d.step x).calls := by
  obtain ⟨w, i⟩ := x
  obtain ⟨hcore, hl, _, _⟩ := step_takes i ⟨hs, hu.1⟩
  have htolerates := hu.2 (overChannel_of_completes hreport)
  obtain ⟨r, artifacts, rest, hcalls, hrest⟩ := calls_reported (w := w) halive hreport
  show Onward w j n d.engine (d.step (w, i)).core.engine (d.step (w, i)).calls
  rw [hcore]
  rw [hcalls] at hl htolerates ⊢
  have hspares := spares_of_tolerates htolerates.2 fun x hx => by rw [hrest x hx]; nofun
  have hjob : d.engine.store.getJob j = none := by
    cases hget : d.engine.store.getJob j with
    | none => rfl
    | some job =>
      rw [statusOf_some hget] at hnone
      cases hnone
  have hs₁ := sound_act hs hl.1
  have hq₁ : (coreStep d.core (w, .call r (.markCompleted j artifacts))).engine.Queues j := by
    refine queues_markCompleted (w := w) j artifacts hq fun _ => ?_
    show d.engine.statusOf j ≠ some .ready
    rw [hnone]
    nofun
  have hjob₁ : (coreStep d.core (w, .call r (.markCompleted j artifacts))).engine.store.getJob j =
      none := by
    show (d.engine.markCompleted w j artifacts).store.getJob j = none
    rw [getJob_markCompleted, hjob]
    rfl
  obtain rfl : n = 0 := by
    cases hc with
    | waiting => rfl
    | working => rfl
    | done hst _ =>
      rw [hnone] at hst
      cases hst
  have honward := onward_spared (w := w) hs₁ hq₁
    (.waiting (Or.inl (statusOf_none hjob₁)) (unopened_of_none hs₁.grounded hjob₁)) hl.2 hspares
  have hzero : ∀ l, completionsFrom j d.engine l = 0 := fun l => if_pos hnone
  refine ⟨honward.queues, ?_, fun hstarted => absurd (Or.inl hnone) hstarted,
    fun hno => absurd (hzero _) hno⟩
  have hcourse := honward.course
  rw [completionsFrom_of_none (completionsOf_spared hspares)] at hcourse
  rw [hzero]
  exact hcourse

/-- A step advances a job that is in channels, or is not there yet. -/
theorem onward_step (hs : Sound d.core) (hshut : EveryChannel Channel.Shut d.core)
    (hq : d.engine.Queues j) (hc : Course j d.engine n) (hin : ¬ d.engine.Outside j)
    (hu : Faultless j d x) (hr : Unreported j d x) :
    Onward x.1 j n d.engine (d.step x).engine (d.step x).calls := by
  obtain ⟨w, i⟩ := x
  obtain ⟨hcore, hl, _, _⟩ := step_takes i ⟨hs, hu.1⟩
  cases hover : i.overChannel with
  | false =>
    by_cases hreport : d.alive = true ∧ i.completes j = true
    · have hnone : d.engine.statusOf j = none := by
        by_contra hknown
        refine hin ⟨hknown, fun id b ⟨ch, hch, hj, _⟩ => ?_⟩
        have hid := RunStore.channelId_of_getChannel hch
        have hmem := (RunStore.mem_allChannelsForJob (w := w)).mpr ⟨hid.symm ▸ hch, hj⟩
        rw [hr hreport.1 hreport.2] at hmem
        cases hmem
      exact onward_unknown hs hq hc hu hreport.1 hreport.2 hnone
    · have hspares := spares_of_tolerates (hu.2 hover) (calls_unreported hover fun halive =>
        Bool.eq_false_iff.mpr fun hcompletes => hreport ⟨halive, hcompletes⟩)
      show Onward w j n d.engine (d.step (w, i)).core.engine (d.step (w, i)).calls
      rw [hcore]
      exact onward_spared hs hq hc hl hspares
  | true =>
    show Onward w j n d.engine (d.step (w, i)).core.engine (d.step (w, i)).calls
    rw [hcore]
    cases halive : d.alive with
    | false =>
      have hcalls : (d.step (w, i)).calls = [] := by
        rw [step_of_dead rfl halive]
        cases i with
        | event v => rfl
        | _ => cases hover
      rw [hcalls]
      exact onward_spared hs hq hc True.intro True.intro
    | true =>
      exact onward_handled (d := { d with sent := [], calls := [] })
        (handles_event rfl halive hover) rfl hs hshut hq hc hl

/-- The job's part of the state, and what all runs keep: the job takes its course in its
channels, or takes part in none. -/
structure Tracked (j : JobId) (n : Nat) (d : Daemon) : Prop where
  sound : Sound d.core
  shut : EveryChannel Channel.Shut d.core
  part : (d.engine.Queues j ∧ Course j d.engine n) ∨ d.engine.Outside j

/-- The job has been started, or takes part in no channel. -/
def OrchestratorEngine.Begun (e : OrchestratorEngine) (j : JobId) : Prop :=
  ¬ e.Unstarted j ∨ e.Outside j

theorem Tracked.step (h : Tracked j n d) (hu : Faultless j d x) (hr : Unreported j d x) :
    Tracked j (n + completionsFrom j d.engine (d.step x).calls) (d.step x) ∧
      (d.engine.Begun j → (d.step x).engine.Begun j) := by
  obtain ⟨hsound, hshut⟩ := core_step (P := EveryChannel Channel.Shut)
    (fun c x _ _ hq _ => everyChannel_act kept_shut c x hq) d x ⟨h.sound, h.shut⟩
    (guarded_of_clocked hu.1)
  by_cases hin : d.engine.Outside j
  · have hout := outside_step h.sound hin hu
    exact ⟨⟨hsound, hshut, Or.inr hout⟩, fun _ => Or.inr hout⟩
  · obtain ⟨hq, hc⟩ := h.part.resolve_right hin
    have hstep := onward_step h.sound h.shut hq hc hin hu hr
    exact ⟨⟨hsound, hshut, Or.inl ⟨hstep.queues, hstep.course⟩⟩,
      fun hbegun => Or.inl (hstep.started (hbegun.resolve_right hin))⟩

theorem tracked_run (is : List (World × Input)) : ∀ {d : Daemon} {n : Nat}, Tracked j n d →
    Meets Daemon.step (Faultless j) d is → Meets Daemon.step (Unreported j) d is →
      Tracked j (n + d.completions j is) (run Daemon.step d is) ∧
        (d.engine.Begun j → (run Daemon.step d is).engine.Begun j) := by
  induction is with
  | nil => exact fun h _ _ => ⟨h, id⟩
  | cons x is ih =>
    intro d n h hu hr
    obtain ⟨hstep, hbegun⟩ := h.step hu.1 hr.1
    obtain ⟨hrest, hbegun'⟩ := ih hstep hu.2 hr.2
    rw [Nat.add_assoc] at hrest
    exact ⟨hrest, fun h => hbegun' (hbegun h)⟩

theorem tracked_off (persistent : Bool) (sandboxOverride : Option Bool) (capsule : Bool) :
    Tracked j 0 (Daemon.off persistent sandboxOverride capsule) where
  sound := sound_off ..
  shut := everyChannel_off ..
  part := Or.inl ⟨rfl, .waiting (Or.inl rfl) (fun _ _ hch => by cases hch)⟩

theorem completions_append (is js : List (World × Input)) : ∀ d : Daemon,
    d.completions j (is ++ js) =
      d.completions j is + (run Daemon.step d is).completions j js := by
  induction is with
  | nil => exact fun d => (Nat.zero_add _).symm
  | cons x is ih =>
    intro d
    show completionsFrom j d.engine _ + (d.step x).completions j (is ++ js) = _
    rw [ih, ← Nat.add_assoc]
    rfl

end

/-- What becomes of a job in channels over a run, at each point of it: it is completed once all
of its channels are closed, and once, runs until then, and leaves an artifact of all that has
been said on them. -/
structure CompletesOnce (j : JobId) (d : Daemon) (is : List (World × Input)) : Prop where
  before : ∀ pre, pre <+: is → (∃ id, (run Daemon.step d pre).engine.Standing j id false) →
    d.completions j pre = 0 ∧ (run Daemon.step d pre).engine.statusOf j ≠ some .completed
  after : ∀ pre, pre <+: is → (run Daemon.step d pre).engine.AllClosed j →
    d.completions j pre = 1 ∧ (run Daemon.step d pre).engine.statusOf j = some .completed
  runs : ∀ pre mid, pre ++ mid <+: is →
    (run Daemon.step d pre).engine.statusOf j = some .running →
      (∃ id, (run Daemon.step d (pre ++ mid)).engine.Standing j id false) →
        (run Daemon.step d (pre ++ mid)).engine.statusOf j = some .running
  concludes : ∀ pre x, pre ++ [x] <+: is →
    (∃ id b, (run Daemon.step d pre).engine.Standing j id b) →
      completionsOf j ((run Daemon.step d pre).step x).calls ≠ 0 →
        Concludes x.1 j (run Daemon.step d pre).engine ((run Daemon.step d pre).step x).engine
          ((run Daemon.step d pre).step x).calls

section
variable {j : JobId} {d : Daemon} {is pre mid : List (World × Input)} {x : World × Input} {n : Nat}

theorem Tracked.course (h : Tracked j n d) {id : ChannelId} {b : Bool}
    (hin : d.engine.Standing j id b) : d.engine.Queues j ∧ Course j d.engine n :=
  h.part.resolve_right fun hout => hout.standing id b hin

theorem known_of_standing (hs : Sound d.core) {id : ChannelId} {b : Bool}
    (hin : d.engine.Standing j id b) : d.engine.statusOf j ≠ none := by
  cases hjob : d.engine.store.getJob j with
  | none => exact absurd hin (not_standing_of_none hs.grounded hjob id b)
  | some job => exact statusOf_ne_none hjob

/-- A job that is not reported completed while it is in channels completes with the last. -/
theorem completesOnce_of_unreported (h : Tracked j 0 d)
    (hu : Meets Daemon.step (Faultless j) d is) (hr : Meets Daemon.step (Unreported j) d is) :
    CompletesOnce j d is := by
  -- the course tells at each point how often the job has been completed
  have htracked : ∀ pre, pre <+: is → Tracked j (d.completions j pre) (run Daemon.step d pre) := by
    rintro pre ⟨post, rfl⟩
    have hpre := (tracked_run pre h (Meets.append.mp hu).1 (Meets.append.mp hr).1).1
    rwa [Nat.zero_add] at hpre
  refine ⟨fun pre hpre hopen => ?_, fun pre hpre hover => ?_, fun pre mid hpre hrun hopen => ?_,
    fun pre x hpre hin hcompletes => ?_⟩
  · obtain ⟨id, hopen⟩ := hopen
    have hcourse := ((htracked pre hpre).course hopen).2
    generalize d.completions j pre = n at hcourse ⊢
    cases hcourse with
    | waiting hst _ =>
      refine ⟨rfl, ?_⟩
      rcases hst with hst | hst | hst <;> rw [hst] <;> nofun
    | working hst _ =>
      refine ⟨rfl, ?_⟩
      rw [hst]
      nofun
    | done _ hover => exact absurd hopen (hover.2 id)
  · obtain ⟨id, hclosed⟩ := hover.1
    have hcourse := ((htracked pre hpre).course hclosed).2
    generalize d.completions j pre = n at hcourse ⊢
    cases hcourse with
    | waiting _ hun => exact absurd hover (not_allClosed_of_unopened hun)
    | working _ hopen => exact absurd hover hopen
    | done hst _ => exact ⟨rfl, hst⟩
  · obtain ⟨id, hopen⟩ := hopen
    have hcourse := ((htracked _ hpre).course hopen).2
    obtain ⟨post, rfl⟩ := hpre
    have hbegun := (tracked_run mid (htracked pre ⟨mid ++ post, by rw [List.append_assoc]⟩)
      (Meets.append.mp (Meets.append.mp hu).1).2 (Meets.append.mp (Meets.append.mp hr).1).2).2
      (Or.inl (not_unstarted (Or.inl hrun)))
    rw [← run_append] at hbegun
    have hstarted := hbegun.resolve_right fun hout => hout.standing id false hopen
    generalize d.completions j (pre ++ mid) = n at hcourse
    cases hcourse with
    | waiting hst _ => exact absurd hst hstarted
    | working hst _ => exact hst
    | done _ hover => exact absurd hopen (hover.2 id)
  · obtain ⟨id, b, hin⟩ := hin
    obtain ⟨post, rfl⟩ := hpre
    have hmid := htracked pre ⟨[x] ++ post, by rw [List.append_assoc]⟩
    obtain ⟨hq, hc⟩ := hmid.course hin
    have hstep := onward_step hmid.sound hmid.shut hq hc (fun hout => hout.standing id b hin)
      (Meets.append.mp (Meets.append.mp hu).1).2.1 (Meets.append.mp (Meets.append.mp hr).1).2.1
    refine hstep.concludes ?_
    rwa [completionsFrom_of_known (known_of_standing hmid.sound hin)]

/-- A report of a job that is in channels completes it too early or once more. -/
theorem unreported_of_completesOnce (h : CompletesOnce j d is)
    (hs : Sound (run Daemon.step d pre).core) (hu : Faultless j (run Daemon.step d pre) x)
    (hpre : pre ++ [x] <+: is) : Unreported j (run Daemon.step d pre) x := by
  intro halive hreport
  refine List.eq_nil_iff_forall_not_mem.mpr fun ch hch => ?_
  obtain ⟨hget, hj⟩ := RunStore.mem_allChannelsForJob.mp hch
  have hin := standing_of_get hget hj
  have hknown := known_of_standing hs hin
  have hremains := remains_step hs hu (overChannel_of_completes hreport) hknown
  -- the step completes the job
  have hmore : d.completions j (pre ++ [x]) =
      d.completions j pre + completionsOf j ((run Daemon.step d pre).step x).calls := by
    rw [completions_append]
    show _ + (completionsFrom j _ _ + 0) = _
    rw [Nat.add_zero, completionsFrom_of_known hknown]
  have hone : completionsOf j ((run Daemon.step d pre).step x).calls ≠ 0 := by
    obtain ⟨r, artifacts, rest, hcalls, _⟩ := calls_reported (w := x.1) halive hreport
    rw [show (run Daemon.step d pre).step x = (run Daemon.step d pre).step (x.1, x.2) from rfl,
      hcalls]
    show (j :: rest.filterMap completedBy).count j ≠ 0
    rw [List.count_cons_self]
    exact Nat.succ_ne_zero _
  have hstanding : ∀ id b, (run Daemon.step d (pre ++ [x])).engine.Standing j id b ↔
      (run Daemon.step d pre).engine.Standing j id b := by
    rw [run_append]
    exact hremains.standing
  by_cases hopen : ∃ id, (run Daemon.step d pre).engine.Standing j id false
  · -- too early
    obtain ⟨id, hopen⟩ := hopen
    obtain ⟨hnone, _⟩ := h.before _ hpre ⟨id, (hstanding id false).mpr hopen⟩
    omega
  · -- once more
    have hover : (run Daemon.step d pre).engine.AllClosed j := by
      refine ⟨⟨ch.channelId, ?_⟩, fun id hid => hopen ⟨id, hid⟩⟩
      cases hclosed : ch.closed with
      | true => exact hclosed ▸ hin
      | false => exact absurd ⟨_, hclosed ▸ hin⟩ hopen
    obtain ⟨hbefore, _⟩ := h.after pre ((List.prefix_append pre [x]).trans hpre) hover
    obtain ⟨hafter, _⟩ := h.after _ hpre ((allClosed_congr hstanding).mpr hover)
    omega

end

/-- Two channels over three jobs, one of which takes part in both. -/
def relayPlan : ExecutionPlan where
  jobs := ["a", "b", "c"].map (fun l =>
    { localId := l, role := "coder", profileId := "coder", instruction := "write",
      dependsOn := [] })
  channels := [("x", ["a", "b"]), ("y", ["b", "c"])].map (fun c =>
    { channelId := c.1, participants := c.2, mode := .turnBased, maxRounds := some 1,
      onPeerFailure := .killAll, initialMessage := none })

def channelDoneEvent (channelId fromJob : String) : Input :=
  .event (.obj [("type", .str "channel_done"), ("channel_id", .str channelId),
    ("from_job", .str fromJob)])

/-- The first channel is closed by one of its agents, the second by its last message. -/
def relayHeld : List (World × Input) :=
  [(plannerWorld relayPlan, .start), (plannerWorld relayPlan, .command (.submitRun "task")),
    (plannerWorld relayPlan, artifactEvent "job_1_1" "plan"),
    (plannerWorld relayPlan, completedEvent "job_1_1" ["plan"]),
    (plannerWorld relayPlan, channelDoneEvent "run_1_0:x" "job_1_2"),
    (plannerWorld relayPlan, messageEvent "run_1_0:y" "job_1_3" "hello"),
    (plannerWorld relayPlan, messageEvent "run_1_0:y" "job_1_4" "bye")]

/-- In a sandbox the agents are told to do their jobs, and one of them reports that it has. -/
def relayReported : List (World × Input) :=
  relayHeld.take 4 ++ [(plannerWorld relayPlan, completedEvent "job_1_3" [])]

end ZeptoPM
