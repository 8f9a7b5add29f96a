import ZeptoPM.Daemon
import ZeptoPM.Integrity
import ZeptoPM.Machine

/- What the handlers do to engine and database: the actions noted in `calls` lead
   from the state before to the state after, every one of them is legal, and a
   handler that is not aborted persists each run it has made calls for. -/
namespace ZeptoPM
open OrchestratorEngine Daemon

/-! ## Lists of actions -/

/-- The run that has to be persisted once the action has been taken. -/
def Action.owes : Action → Option RunId
  | .call _ (.recordHeartbeat _) | .call _ (.createArtifact _) => none
  | .call r _ => some r
  | _ => none

/-- The run that the action writes to the database. -/
def Action.persists : Action → Option RunId
  | .persistRunState r => some r
  | _ => none

/-- Whether the action takes records away. -/
def Action.removes : Action → Bool
  | .expire _ | .hydrate => true
  | _ => false

/-- The run is persisted by one of the actions, before any takes records away. -/
def Awaited (r : RunId) : List (World × Action) → Prop
  | [] => False
  | x :: l => x.2.persists = some r ∨ (x.2.removes = false ∧ Awaited r l)

instance Awaited.decidable (r : RunId) : ∀ l, Decidable (Awaited r l)
  | [] => inferInstanceAs (Decidable False)
  | x :: l =>
    have _ : Decidable (Awaited r l) := Awaited.decidable r l
    inferInstanceAs (Decidable (x.2.persists = some r ∨ (x.2.removes = false ∧ Awaited r l)))

/-- Only the run `r` has to be persisted after the actions, and none takes records
away. -/
def Owing (r : RunId) (l : List (World × Action)) : Prop :=
  ∀ x ∈ l, x.2.removes = false ∧ ∀ r', x.2.owes = some r' → r' = r

/-- After each action, the run it owes is persisted. -/
def Settled : List (World × Action) → Prop
  | [] => True
  | x :: l => (∀ r, x.2.owes = some r → Awaited r l) ∧ Settled l

theorem Awaited.append {r : RunId} {l₁ : List (World × Action)} (h : Awaited r l₁)
    (l₂ : List (World × Action)) : Awaited r (l₁ ++ l₂) := by
  induction l₁ with
  | nil => exact absurd h id
  | cons x l₁ ih => exact h.imp id (fun h => ⟨h.1, ih h.2⟩)

theorem Owing.nil (r : RunId) : Owing r [] := by
  intro x hx
  cases hx

theorem Owing.append {r : RunId} {l₁ l₂ : List (World × Action)} (h₁ : Owing r l₁)
    (h₂ : Owing r l₂) : Owing r (l₁ ++ l₂) := by
  intro x hx
  rcases List.mem_append.mp hx with hx | hx
  · exact h₁ x hx
  · exact h₂ x hx

theorem Settled.append {l₁ l₂ : List (World × Action)} (h₁ : Settled l₁) (h₂ : Settled l₂) :
    Settled (l₁ ++ l₂) := by
  induction l₁ with
  | nil => exact h₂
  | cons x l₁ ih => exact ⟨fun r hr => (h₁.1 r hr).append l₂, ih h₁.2⟩

theorem Owing.awaited {r : RunId} {l : List (World × Action)} (h : Owing r l) (w : World) :
    Awaited r (l ++ [(w, .persistRunState r)]) := by
  induction l with
  | nil => exact Or.inl rfl
  | cons x l ih =>
    exact Or.inr ⟨(h x List.mem_cons_self).1, ih (fun y hy => h y (List.mem_cons_of_mem _ hy))⟩

theorem Owing.settled {r : RunId} {l : List (World × Action)} (h : Owing r l) (w : World) :
    Settled (l ++ [(w, .persistRunState r)]) := by
  induction l with
  | nil =>
    refine ⟨?_, True.intro⟩
    intro r' hr
    cases hr
  | cons x l ih =>
    have hl : Owing r l := fun y hy => h y (List.mem_cons_of_mem _ hy)
    refine ⟨?_, ih hl⟩
    intro r' hr
    obtain rfl := (h x List.mem_cons_self).2 r' hr
    exact hl.awaited w

/-! ## What a handler does -/

/-- Sound, at a time that has not fallen behind the start of the process. -/
def Timely (w : World) (c : Core) : Prop := Sound c ∧ w.After c.engine.ids

/-- From a sound state, the handler takes legal actions that satisfy `S`. -/
def Takes (w : World) (S : List (World × Action) → Prop) (d d' : Daemon) : Prop :=
  Timely w d.core → ∃ l, d'.calls = d.calls ++ l ∧ d'.core = run coreStep d.core l ∧
    Meets coreStep Legal d.core l ∧ S l ∧ Timely w d'.core

/-- Neither engine nor database is touched. -/
def Untouched (d d' : Daemon) : Prop := d'.core = d.core ∧ d'.calls = d.calls

theorem Untouched.refl (d : Daemon) : Untouched d d := ⟨rfl, rfl⟩

theorem Untouched.engine {d d' : Daemon} (h : Untouched d d') : d'.engine = d.engine :=
  congrArg Core.engine h.1

theorem Untouched.trans {d₁ d₂ d₃ : Daemon} (h₁ : Untouched d₁ d₂) (h₂ : Untouched d₂ d₃) :
    Untouched d₁ d₃ := ⟨h₂.1.trans h₁.1, h₂.2.trans h₁.2⟩

theorem untouched_foldl {α : Type} {f : Daemon → α → Daemon} (hf : ∀ d a, Untouched d (f d a))
    (l : List α) (d : Daemon) : Untouched d (l.foldl f d) :=
  foldl_relates .refl .trans l (fun a _ d => hf d a) d

section
variable {w : World} {S : List (World × Action) → Prop} {d d₁ d₂ d₃ : Daemon}

theorem Takes.trans (hS : ∀ l₁ l₂, S l₁ → S l₂ → S (l₁ ++ l₂)) (h₁ : Takes w S d₁ d₂)
    (h₂ : Takes w S d₂ d₃) : Takes w S d₁ d₃ := by
  intro ht
  obtain ⟨l₁, hcalls₁, hcore₁, hlegal₁, hs₁, ht₁⟩ := h₁ ht
  obtain ⟨l₂, hcalls₂, hcore₂, hlegal₂, hs₂, ht₂⟩ := h₂ ht₁
  refine ⟨l₁ ++ l₂, ?_, ?_, ?_, hS l₁ l₂ hs₁ hs₂, ht₂⟩
  · rw [hcalls₂, hcalls₁, List.append_assoc]
  · rw [hcore₂, hcore₁, run_append]
  · exact Meets.append.mpr ⟨hlegal₁, hcore₁ ▸ hlegal₂⟩

theorem Takes.of_untouched (hS : S []) (h : Untouched d₁ d₂) : Takes w S d₁ d₂ := by
  intro ht
  exact ⟨[], by rw [h.2, List.append_nil], h.1, True.intro, hS, h.1 ▸ ht⟩

theorem Takes.untouched (h₁ : Takes w S d₁ d₂) (h : Untouched d₂ d₃) : Takes w S d₁ d₃ := by
  intro ht
  obtain ⟨l, hcalls, hcore, hlegal, hs, ht'⟩ := h₁ ht
  exact ⟨l, h.2.trans hcalls, h.1.trans hcore, hlegal, hs, h.1 ▸ ht'⟩

theorem Untouched.takes (h : Untouched d₁ d₂) (h₂ : Takes w S d₂ d₃) : Takes w S d₁ d₃ := by
  intro ht
  obtain ⟨l, hcalls, hcore, hlegal, hs, ht'⟩ := h₂ (h.1 ▸ ht)
  exact ⟨l, by rw [hcalls, h.2], by rw [hcore, h.1], h.1 ▸ hlegal, hs, ht'⟩

/-- The clock has not fallen behind after an action, unless it starts a process. -/
theorem Timely.act {c : Core} (h : Timely w c) {a : Action} (ha : a ≠ .hydrate)
    (hl : Legal c (w, a)) : Timely w (c.act w a) := by
  refine ⟨sound_act h.1 hl, ?_⟩
  have hst : (c.act w a).engine.ids.startedAt = c.engine.ids.startedAt := by
    cases a with
    | call r f => exact (ids_apply w c.engine h.1.grounded.supervised.home f).2
    | hydrate => exact absurd rfl ha
    | _ => rfl
  unfold World.After
  rw [hst]
  exact h.2

/-- One action, legal wherever it is timely. -/
theorem Takes.act {a : Action} (ha : a ≠ .hydrate)
    (hl : Timely w d.core → Legal d.core (w, a)) (hS : S [(w, a)]) :
    Takes w S d (d.act w a) := by
  intro ht
  exact ⟨[(w, a)], rfl, rfl, ⟨hl ht, True.intro⟩, hS, ht.act ha (hl ht)⟩

variable {r : RunId}

theorem Owing.single {x : World × Action} (hx : x.2.removes = false)
    (h : ∀ r', x.2.owes = some r' → r' = r) : Owing r [x] := by
  intro y hy
  rw [List.mem_singleton] at hy
  exact hy ▸ ⟨hx, h⟩

/-- One call for the run `r`, legal wherever it is timely. -/
theorem takes_call {c : Call} (hl : Timely w d.core → Legal d.core (w, .call r c)) :
    Takes w (Owing r) d (d.act w (.call r c)) := by
  refine Takes.act (fun h => by cases h) hl (Owing.single rfl ?_)
  intro r' hr
  have howes : ∀ c, (Action.call r c).owes = none ∨ (Action.call r c).owes = some r := by
    intro c
    cases c <;> first | exact Or.inl rfl | exact Or.inr rfl
  rcases howes c with h | h <;> rw [h] at hr <;> cases hr
  rfl

/-- An action after which nothing has to be persisted. -/
theorem takes_free {a : Action} (ha : a.removes = false) (hfree : a.owes = none)
    (hl : Timely w d.core → Legal d.core (w, a)) : Takes w (Owing r) d (d.act w a) := by
  have hne : a ≠ .hydrate := by
    intro heq
    subst heq
    cases ha
  refine Takes.act hne hl (Owing.single ha ?_)
  intro r' hr
  rw [hfree] at hr
  cases hr

theorem Takes.then (h₁ : Takes w (Owing r) d₁ d₂) (h₂ : Takes w (Owing r) d₂ d₃) :
    Takes w (Owing r) d₁ d₃ := Takes.trans (fun _ _ => Owing.append) h₁ h₂

theorem Takes.andThen (h₁ : Takes w Settled d₁ d₂) (h₂ : Takes w Settled d₂ d₃) :
    Takes w Settled d₁ d₃ := Takes.trans (fun _ _ => Settled.append) h₁ h₂

/-- A loop whose every round takes such actions, `P` being kept by the rounds. -/
theorem takes_foldl {α : Type} {f : Daemon → α → Daemon} {P : Daemon → Prop} (hnil : S [])
    (hS : ∀ l₁ l₂, S l₁ → S l₂ → S (l₁ ++ l₂)) (l : List α)
    (hf : ∀ d, ∀ a ∈ l, P d → Takes w S d (f d a) ∧ P (f d a)) :
    ∀ d, P d → Takes w S d (l.foldl f d) ∧ P (l.foldl f d) := by
  induction l with
  | nil => exact fun d hP => ⟨.of_untouched hnil (.refl d), hP⟩
  | cons a l ih =>
    intro d hP
    obtain ⟨h₁, hP₁⟩ := hf d a List.mem_cons_self hP
    obtain ⟨h₂, hP₂⟩ := ih (fun d b hb => hf d b (List.mem_cons_of_mem _ hb)) (f d a) hP₁
    exact ⟨Takes.trans hS h₁ h₂, hP₂⟩

/-! ## Workers and messages -/

/-- Whether the effect starts a worker, gives it its work or stops it. -/
def Effect.forWorker : Effect → Bool
  | .spawn _ | .spawnCapsule _ | .stop _ | .sendMessage .. | .sendJob .. | .event _ => true
  | _ => false

/-- A relation between daemons that holds of whatever the spawning and dropping of workers is
made of. -/
structure Manning (R : Daemon → Daemon → Prop) : Prop where
  refl : ∀ d, R d d
  trans : ∀ {d₁ d₂ d₃}, R d₁ d₂ → R d₂ d₃ → R d₁ d₃
  send : ∀ d effect, effect.forWorker = true → R d (d.send effect)
  manage : ∀ d managed, R d { d with managed := managed }

namespace Manning
variable {R : Daemon → Daemon → Prop}

theorem stopWorker (h : Manning R) (d : Daemon) (worker : String) :
    R d (d.stopWorker worker) := by
  unfold Daemon.stopWorker
  split
  · exact h.send d _ rfl
  · exact h.refl d

theorem dropWorker (h : Manning R) (d : Daemon) (worker : String) :
    R d ((d.stopWorker worker).removeManaged worker) :=
  h.trans (h.stopWorker d worker) (h.manage _ _)

theorem spawnJobWorker (h : Manning R) (w : World) (d : Daemon) (job : Job) :
    R d (d.spawnJobWorker w job) := by
  unfold Daemon.spawnJobWorker
  dsimp only
  split
  · exact h.trans (h.send d (.spawnCapsule job.jobId) rfl) (h.manage _ _)
  · split
    · exact h.send d _ rfl
    · rename_i agent _
      refine h.trans (h.send d (.spawn agent.name) rfl) (h.trans ?_ (h.manage _ _))
      split <;> exact h.send _ _ rfl

/-- Every round of the spawn loop starts a job and spawns its worker. -/
theorem spawnReady (h : Manning R) {w : World} {r : RunId}
    (hnext : ∀ d : Daemon, R d (d.act w (.call r .startNext))) (fuel : Nat) :
    ∀ d, R d (Daemon.spawnReady w r fuel d) := by
  induction fuel with
  | zero => exact h.refl
  | succ fuel ih =>
    intro d
    unfold Daemon.spawnReady
    split
    · exact hnext d
    · exact h.trans (hnext d) (h.trans (h.spawnJobWorker w _ _) (ih _))

end Manning

theorem untouched_send (d : Daemon) (effect : Effect) : Untouched d (d.send effect) := ⟨rfl, rfl⟩

theorem manning_untouched : Manning Untouched where
  refl := .refl
  trans := .trans
  send := fun d effect _ => untouched_send d effect
  manage := fun _ _ => ⟨rfl, rfl⟩

theorem untouched_dropWorker (d : Daemon) (worker : String) :
    Untouched d ((d.stopWorker worker).removeManaged worker) :=
  manning_untouched.dropWorker d worker

theorem untouched_spawnJobWorker (w : World) (d : Daemon) (job : Job) :
    Untouched d (d.spawnJobWorker w job) := manning_untouched.spawnJobWorker w d job

theorem untouched_sendInitial (d : Daemon) (channelId : ChannelId) :
    Untouched d (d.sendInitial channelId) := by
  unfold sendInitial
  split
  · exact .refl d
  · split
    · split
      · exact untouched_send d _
      · exact .refl d
    · exact .refl d

theorem untouched_notifyPeer (message : String) (d : Daemon) (peerId : JobId) :
    Untouched d (notifyPeer message d peerId) := by
  unfold notifyPeer
  split
  · exact untouched_send d _
  · exact .refl d

theorem untouched_routeTo (channelId message : String) (d : Daemon) (jobId : JobId) :
    Untouched d (routeTo channelId message d jobId) := by
  unfold routeTo
  split
  · exact untouched_send d _
  · exact .refl d

/-! ## The end of a handler -/

theorem takes_startNext : Takes w (Owing r) d (d.act w (.call r .startNext)) :=
  takes_call (fun ht => ⟨ht.2, True.intro⟩)

theorem takes_spawnReady (fuel : Nat) : ∀ d, Takes w (Owing r) d (spawnReady w r fuel d) := by
  induction fuel with
  | zero => exact fun d => .of_untouched (.nil r) (.refl d)
  | succ fuel ih =>
    intro d
    unfold spawnReady
    split
    · exact takes_startNext
    · exact (takes_startNext.untouched (untouched_spawnJobWorker w _ _)).then (ih _)

theorem takes_spawnLoop : Takes w (Owing r) d (spawnLoop w r d) := takes_spawnReady _ d

theorem takes_activateChannels : Takes w (Owing r) d (activateChannels w r d) :=
  (takes_call (fun ht => ⟨ht.2, True.intro⟩)).untouched (untouched_foldl untouched_sendInitial _ _)

/-- A handler that has made calls for `r` only is settled by its end. -/
theorem takes_finish (h : Takes w (Owing r) d₁ d₂) : Takes w Settled d₁ (finish w r d₂) := by
  have h' := (h.then takes_spawnLoop).then (takes_activateChannels (r := r))
  intro ht
  obtain ⟨l, hcalls, hcore, hlegal, howing, ht'⟩ := h' ht
  have hl : Legal (activateChannels w r (spawnLoop w r d₂)).core (w, .persistRunState r) :=
    ⟨ht'.2, True.intro⟩
  refine ⟨l ++ [(w, .persistRunState r)], ?_, ?_, ?_, howing.settled w,
    ht'.act (fun h => by cases h) hl⟩
  · show (activateChannels w r (spawnLoop w r d₂)).calls ++ _ = _
    rw [hcalls, List.append_assoc]
  · have hlast : (finish w r d₂).core =
        (activateChannels w r (spawnLoop w r d₂)).core.act w (.persistRunState r) := rfl
    rw [hlast, hcore, run_append]
    rfl
  · exact Meets.append.mpr ⟨hlegal, hcore ▸ hl, True.intro⟩

/-! ## Peers of a failed job -/

/-- The channel's run is `r`, and the listed jobs are participants of it. -/
def ChannelOf (r : RunId) (chId : ChannelId) (jobIds : List JobId) (d : Daemon) : Prop :=
  ∃ chan, d.engine.store.getChannel chId = some chan ∧ chan.runId = r ∧
    ∀ k ∈ jobIds, k ∈ chan.participants

/-- The participants of a channel are jobs of its run. -/
theorem ChannelOf.ofRun {chId : ChannelId} {jobIds : List JobId} (h : ChannelOf r chId jobIds d)
    (hs : Sound d.core) {k : JobId} (hk : k ∈ jobIds) : d.core.engine.OfRun r k := by
  obtain ⟨chan, hchan, hr, hp⟩ := h
  obtain ⟨job, hjob, hjr⟩ := (hs.grounded.channelHome chId chan hchan).2 k (hp k hk)
  intro job' hjob'
  rw [hjob] at hjob'
  cases hjob'
  exact hjr.trans hr

theorem takes_killPeer {chId : ChannelId} {jobIds : List JobId} (jobId : JobId) {k : JobId}
    (hk : k ∈ jobIds) (h : ChannelOf r chId jobIds d) :
    Takes w (Owing r) d (killPeer w r jobId d k) ∧
      ChannelOf r chId jobIds (killPeer w r jobId d k) := by
  have hdrop := untouched_dropWorker d (workerName k)
  refine ⟨hdrop.takes (takes_call (fun ht => ⟨ht.2, ?_⟩)), ?_⟩
  · have hof := h.ofRun (hdrop.1 ▸ ht.1) hk
    rwa [← hdrop.1] at hof
  · obtain ⟨chan, hchan, hr, hp⟩ := h
    refine ⟨chan, ?_, hr, hp⟩
    have hget := getChannel_markFailed w ((d.stopWorker (workerName k)).removeManaged
      (workerName k)).engine k ("channel peer '" ++ jobId ++ "' failed (KillAll)") chId
    refine hget.trans ?_
    show ((d.stopWorker (workerName k)).removeManaged (workerName k)).core.engine.store.getChannel
      chId = some chan
    rw [hdrop.1]
    exact hchan

/-- The channels of the list that exist belong to the run `r`. -/
def ChannelsOf (r : RunId) (chIds : List ChannelId) (d : Daemon) : Prop :=
  ∀ chId ∈ chIds, ∀ chan, d.engine.store.getChannel chId = some chan → chan.runId = r

theorem takes_failChannel (jobId : JobId) {chIds : List ChannelId} {chId : ChannelId}
    (hmem : chId ∈ chIds) (h : ChannelsOf r chIds d) :
    Takes w (Owing r) d (failChannel w r jobId d chId) ∧
      ChannelsOf r chIds (failChannel w r jobId d chId) := by
  have hcall : Takes w (Owing r) d (d.act w (.call r (.handleChannelPeerFailure chId jobId))) :=
    takes_call (fun ht => ⟨ht.2, h chId hmem⟩)
  have hstep := channelStep_peerFailure (e := d.engine) chId jobId
  -- the runs of channels are the same after the call, and kills do not touch channels
  have hafter : ChannelsOf r chIds
      (d.act w (.call r (.handleChannelPeerFailure chId jobId))) := by
    intro c hc chan hchan
    obtain ⟨chan₀, hchan₀, hr, _⟩ := hstep.before hchan
    exact hr.trans (h c hc chan₀ hchan₀)
  unfold failChannel
  dsimp only
  split
  · rename_i jobIds hkill
    obtain ⟨chan, hchan, hp⟩ := killParticipants_mem hkill
    have hof : ChannelOf r chId jobIds
        (d.act w (.call r (.handleChannelPeerFailure chId jobId))) := by
      rcases hstep.channel chId with heq | ⟨c, c', hc, hc', _, hr, hparts⟩
      · exact ⟨chan, heq.trans hchan, h chId hmem chan hchan, fun k hk => (hp k hk).1⟩
      · rw [hchan] at hc
        cases hc
        refine ⟨c', hc', hr.trans (h chId hmem chan hchan), ?_⟩
        intro k hk
        rw [hparts]
        exact (hp k hk).1
    have hloop := takes_foldl (P := fun d => ChannelOf r chId jobIds d ∧ ChannelsOf r chIds d)
      (Owing.nil r) (fun _ _ => Owing.append) jobIds (f := killPeer w r jobId) (w := w) (by
        intro d k hk h
        obtain ⟨hP, hQ⟩ := h
        obtain ⟨htakes, hP'⟩ := takes_killPeer (w := w) jobId hk hP
        refine ⟨htakes, hP', ?_⟩
        intro c hc chan hchan
        refine hQ c hc chan ?_
        have hget := getChannel_markFailed w ((d.stopWorker (workerName k)).removeManaged
          (workerName k)).engine k ("channel peer '" ++ jobId ++ "' failed (KillAll)") c
        have hchan' := hget.symm.trans hchan
        rwa [engine, (untouched_dropWorker d (workerName k)).1] at hchan') _ ⟨hof, hafter⟩
    exact ⟨hcall.then hloop.1, hloop.2.2⟩
  · rename_i jobIds message _
    have hsend := untouched_foldl (untouched_notifyPeer message) jobIds
      (d.act w (.call r (.handleChannelPeerFailure chId jobId)))
    refine ⟨hcall.untouched hsend, ?_⟩
    intro c hc chan hchan
    rw [engine, hsend.1] at hchan
    exact hafter c hc chan hchan
  · exact ⟨hcall, hafter⟩

theorem same_killPeer (w : World) (r : RunId) (jobId : JobId) (d : Daemon) (k : JobId) :
    Same d.engine (killPeer w r jobId d k).engine := by
  show Same d.engine (((d.stopWorker (workerName k)).removeManaged (workerName k)).engine.markFailed
    w k ("channel peer '" ++ jobId ++ "' failed (KillAll)"))
  rw [(untouched_dropWorker d (workerName k)).engine]
  exact same_markFailed k _

theorem same_failChannel (w : World) (r : RunId) (jobId : JobId) (d : Daemon) (chId : ChannelId) :
    Same d.engine (failChannel w r jobId d chId).engine := by
  have hstep := channelStep_peerFailure (e := d.engine) chId jobId
  have hcall : Same d.engine
      (d.act w (.call r (.handleChannelPeerFailure chId jobId))).engine :=
    hstep.frame.same (fun _ _ hk => hstep.before hk)
  have hkill : ∀ (jobIds : List JobId) (d' : Daemon), Same d.engine d'.engine →
      Same d.engine (jobIds.foldl (killPeer w r jobId) d').engine := by
    intro jobIds
    induction jobIds with
    | nil => exact fun d' h => h
    | cons k jobIds ih => exact fun d' h => ih _ (h.trans (same_killPeer w r jobId d' k))
  unfold failChannel
  dsimp only
  split
  · exact hkill _ _ hcall
  · rename_i jobIds message _
    have hsend := untouched_foldl (untouched_notifyPeer message) jobIds
      (d.act w (.call r (.handleChannelPeerFailure chId jobId)))
    rw [hsend.engine]
    exact hcall
  · exact hcall

theorem same_handleChannelPeerFailures (w : World) (r : RunId) (jobId : JobId) (d : Daemon) :
    Same d.engine (handleChannelPeerFailures w r jobId d).engine := by
  have hloop : ∀ (chIds : List ChannelId) (d' : Daemon), Same d.engine d'.engine →
      Same d.engine (chIds.foldl (failChannel w r jobId) d').engine := by
    intro chIds
    induction chIds with
    | nil => exact fun d' h => h
    | cons c chIds ih => exact fun d' h => ih _ (h.trans (same_failChannel w r jobId d' c))
  exact hloop _ d (.refl _)

/-- The failing job's channels belong to the job's run. -/
theorem takes_handleChannelPeerFailures (jobId : JobId) (hr : r = d.jobRunId jobId) :
    Takes w (Owing r) d (handleChannelPeerFailures w r jobId d) := by
  intro ht
  have hchannels : ChannelsOf r ((d.engine.store.channelsForJob w jobId).map (·.channelId)) d := by
    intro chId hmem chan hchan
    obtain ⟨c, hc, rfl⟩ := List.mem_map.mp hmem
    obtain ⟨hget, _, hp⟩ := RunStore.mem_channelsForJob.mp hc
    rw [hchan] at hget
    cases hget
    obtain ⟨job, hjob, hjr⟩ := (ht.1.grounded.channelHome _ chan hchan).2 jobId hp
    rw [hr, jobRunId, engine, hjob]
    exact hjr.symm
  exact (takes_foldl (P := ChannelsOf r ((d.engine.store.channelsForJob w jobId).map (·.channelId)))
    (Owing.nil r) (fun _ _ => Owing.append) _
    (fun d chId hmem hP => takes_failChannel jobId hmem hP) d hchannels).1 ht

/-! ## Participants of a closed channel -/

theorem takes_persistChannelArtifact (job : Job) (content : String) :
    Takes w (Owing r) d (d.persistChannelArtifact w r job content).2 ∧
      ∀ k, (d.persistChannelArtifact w r job content).2.engine.store.getChannel k =
        d.engine.store.getChannel k := by
  have hid : Takes w (Owing r) d (d.act w (.genId "art")) :=
    takes_free rfl rfl (fun ht => ⟨ht.2, True.intro⟩)
  unfold persistChannelArtifact
  dsimp only
  split
  · exact ⟨(hid.then (takes_free rfl rfl (fun ht => ⟨ht.2, True.intro⟩))).then
      (takes_free rfl rfl (fun ht => ⟨ht.2, True.intro⟩)), fun _ => rfl⟩
  · exact ⟨hid, fun _ => rfl⟩

theorem takes_synthesizeChannelArtifact (jobId : JobId) (response : Option String) :
    Takes w (Owing r) d (d.synthesizeChannelArtifact w r jobId response).2 ∧
      ∀ k, (d.synthesizeChannelArtifact w r jobId response).2.engine.store.getChannel k =
        d.engine.store.getChannel k := by
  unfold synthesizeChannelArtifact
  split
  · exact ⟨.of_untouched (.nil r) (.refl d), fun _ => rfl⟩
  · exact takes_persistChannelArtifact ..

theorem untouched_finalResponse (w : World) (d : Daemon) (jobId : JobId) :
    Untouched d (d.finalResponse w jobId).2 := by
  unfold finalResponse
  split
  · split
    · exact untouched_send d _
    · exact .refl d
  · exact .refl d

theorem takes_completeParticipant {jobIds : List JobId} (chId : ChannelId) {k : JobId}
    (hk : k ∈ jobIds) (h : ChannelOf r chId jobIds d) :
    Takes w (Owing r) d (completeParticipant w r chId d k) ∧
      ChannelOf r chId jobIds (completeParticipant w r chId d k) := by
  unfold completeParticipant
  dsimp only
  split
  · have hdrop := (untouched_finalResponse w d k).trans
      (untouched_dropWorker (d.finalResponse w k).2 (workerName k))
    generalize ((d.finalResponse w k).2.stopWorker (workerName k)).removeManaged (workerName k) = d'
      at hdrop ⊢
    obtain ⟨hart, hchan⟩ := takes_synthesizeChannelArtifact (w := w) (r := r) (d := d') k
      (d.finalResponse w k).1
    generalize (d'.synthesizeChannelArtifact w r k (d.finalResponse w k).1).1 = artifactIds
    generalize (d'.synthesizeChannelArtifact w r k (d.finalResponse w k).1).2 = d'' at hart hchan ⊢
    have hof : ChannelOf r chId jobIds d'' := by
      obtain ⟨chan, hget, hr, hp⟩ := h
      refine ⟨chan, (hchan chId).trans ?_, hr, hp⟩
      rw [engine, hdrop.1]
      exact hget
    refine ⟨(hdrop.takes hart).then (takes_call (fun ht => ⟨ht.2, hof.ofRun ht.1 hk⟩)), ?_⟩
    obtain ⟨chan, hget, hr, hp⟩ := hof
    exact ⟨chan, (getChannel_markCompleted w d''.engine k artifactIds chId).trans hget, hr, hp⟩
  · exact ⟨.of_untouched (.nil r) (.refl d), h⟩

theorem takes_completeClosedChannelParticipants {chId : ChannelId}
    (hr : ∀ chan, d.engine.store.getChannel chId = some chan → chan.runId = r) :
    Takes w (Owing r) d (d.completeClosedChannelParticipants w r chId) := by
  unfold completeClosedChannelParticipants
  cases hget : d.engine.store.getChannel chId with
  | none => exact .of_untouched (.nil r) (.refl d)
  | some chan =>
    exact (takes_foldl (P := ChannelOf r chId chan.participants) (Owing.nil r)
      (fun _ _ => Owing.append) _ (fun d k hk hP => takes_completeParticipant chId hk hP) d
      ⟨chan, hget, hr chan hget, fun _ hk => hk⟩).1

/-! ## Orchestrator events -/

theorem ofRun_jobRunId (d : Daemon) (jobId : JobId) :
    d.core.engine.OfRun (d.jobRunId jobId) jobId := by
  intro job hjob
  rw [jobRunId, engine, hjob]
  rfl

/-- The job, if the handler's first call finds it, is there for the calls after it. -/
theorem takes_plannerOutput {jobId : JobId} {artifacts : List ArtifactId} {d' : Daemon}
    (hjob : ∃ job, d.engine.store.getJob jobId = some job ∧ job.runId = r)
    (h : d.plannerOutput w r jobId artifacts = .ok d' ∨
      d.plannerOutput w r jobId artifacts = .error d') :
    Takes w (Owing r) d d' := by
  have hof : d.core.engine.OfRun r jobId := by
    obtain ⟨job, hget, hr⟩ := hjob
    intro job' hget'
    have heq := hget.symm.trans hget'
    cases heq
    exact hr
  have hfail : ∀ err, Takes w (Owing r) d (d.act w (.call r (.markFailed jobId err))) :=
    fun err => takes_call (fun ht => ⟨ht.2, hof⟩)
  have hsame : Takes w (Owing r) d d := .of_untouched (.nil r) (.refl d)
  unfold plannerOutput at h
  split at h
  · rcases h with h | h <;> cases h
    exact hsame
  · split at h
    · rcases h with h | h <;> cases h
      exact hsame
    · split at h
      · rcases h with h | h <;> cases h
        exact hfail _
      · split at h
        · rename_i plan _ hval
          rcases h with h | h <;> cases h
          exact takes_call (fun ht => ⟨ht.2, rfl, List.isEmpty_iff.mp hval, hjob⟩)
        · rcases h with h | h <;> cases h
          exact hfail _

theorem takes_reviewerOutput {jobId : JobId} {d' : Daemon} (hof : d.core.engine.OfRun r jobId)
    (h : d.reviewerOutput w r jobId = .ok d' ∨ d.reviewerOutput w r jobId = .error d') :
    Takes w (Owing r) d d' := by
  have hsame : Takes w (Owing r) d d := .of_untouched (.nil r) (.refl d)
  unfold reviewerOutput at h
  split at h
  · rcases h with h | h <;> cases h
    exact hsame
  · split at h
    · rcases h with h | h <;> cases h
      exact hsame
    · split at h
      · rcases h with h | h <;> cases h
        exact hsame
      · rcases h with h | h <;> cases h
        exact takes_call (fun ht => ⟨ht.2, hof⟩)
      · rcases h with h | h <;> cases h
        exact hsame

theorem ofRun_congr {e e' : OrchestratorEngine} {j : JobId}
    (h : (e'.store.getJob j).map (·.runId) = (e.store.getJob j).map (·.runId))
    (hof : e.OfRun r j) : e'.OfRun r j := by
  intro job' hjob'
  rw [hjob'] at h
  obtain ⟨job, hjob, hr⟩ := Option.map_eq_some_iff.mp h.symm
  exact hr.symm.trans (hof job hjob)

theorem plannerOutput_ofRun {jobId : JobId} {artifacts : List ArtifactId} {d' : Daemon}
    (ht : Timely w d.core)
    (hjob : ∃ job, d.engine.store.getJob jobId = some job ∧ job.runId = r)
    (h : d.plannerOutput w r jobId artifacts = .ok d') : d'.core.engine.OfRun r jobId := by
  have hof : d.core.engine.OfRun r jobId := by
    obtain ⟨job, hget, hr⟩ := hjob
    intro job' hget'
    have heq := hget.symm.trans hget'
    cases heq
    exact hr
  have hfail : ∀ err, (d.act w (.call r (.markFailed jobId err))).core.engine.OfRun r jobId :=
    fun err => ofRun_congr ((same_markFailed jobId err).job jobId) hof
  unfold plannerOutput at h
  split at h
  · cases h
    exact hof
  · split at h
    · cases h
    · split at h
      · cases h
        exact hfail _
      · split at h
        · rename_i plan _ hval
          cases h
          have hl : Legal ⟨d.core.engine, d.core.db⟩ (w, .call r (.acceptPlan r jobId plan)) :=
            ⟨ht.2, rfl, List.isEmpty_iff.mp hval, hjob⟩
          obtain ⟨job, hget, hr⟩ := hjob
          obtain ⟨job', hget', hr'⟩ := (grounded_call ht.1.grounded hl).2.job jobId job hget
          intro job'' hget''
          have heq := hget'.symm.trans hget''
          cases heq
          exact hr'.trans hr
        · cases h
          exact hfail _

/-- The steps of a completion: the job is completed, the output of a planner and of
a reviewer looked at, and the handler finished. -/
theorem jobCompleted_eq (w : World) (d : Daemon) (jobId : JobId) (artifacts : List ArtifactId) :
    d.jobCompleted w jobId artifacts =
      match (if d.hasRole jobId "planner" then
        ((d.removeManaged (workerName jobId)).act w
          (.call (d.jobRunId jobId) (.markCompleted jobId artifacts))).plannerOutput w
            (d.jobRunId jobId) jobId artifacts
        else .ok ((d.removeManaged (workerName jobId)).act w
          (.call (d.jobRunId jobId) (.markCompleted jobId artifacts)))) with
      | .error d => .error d
      | .ok d₂ =>
        match (if d₂.hasRole jobId "reviewer" then d₂.reviewerOutput w (d.jobRunId jobId) jobId
          else .ok d₂) with
        | .error d => .error d
        | .ok d₃ => .ok (finish w (d.jobRunId jobId) d₃) := rfl

/-- A completion's calls are for the run of the job; it is settled unless a slice
aborts it. -/
theorem takes_jobCompleted (w : World) (d : Daemon) (jobId : JobId) (artifacts : List ArtifactId)
    (d' : Daemon) :
    (d.jobCompleted w jobId artifacts = .ok d' → Takes w Settled d d') ∧
      (d.jobCompleted w jobId artifacts = .error d' → Takes w (Owing (d.jobRunId jobId)) d d') := by
  -- the planner part, then the reviewer part, then the end of the handler
  generalize hr : d.jobRunId jobId = r
  generalize hd₁ : (d.removeManaged (workerName jobId)).act w
    (.call r (.markCompleted jobId artifacts)) = d₁
  have hsame := same_markCompleted (w := w) (e := d.engine) jobId artifacts
  have hfirst : Takes w (Owing r) d d₁ := by
    rw [← hd₁]
    have hmanaged : Untouched d (d.removeManaged (workerName jobId)) := ⟨rfl, rfl⟩
    refine hmanaged.takes (takes_call (fun ht => ⟨ht.2, ?_⟩))
    rw [← hr]
    exact ofRun_jobRunId d jobId
  -- a planner's job is still in its run when its plan is accepted
  have hjob : d.hasRole jobId "planner" = true →
      ∃ job, d₁.engine.store.getJob jobId = some job ∧ job.runId = r := by
    intro hrole
    unfold hasRole at hrole
    cases hget : d.engine.store.getJob jobId with
    | none =>
      rw [hget] at hrole
      cases hrole
    | some job =>
      obtain ⟨job', hget', hr'⟩ := hsame.job_after hget
      refine ⟨job', ?_, ?_⟩
      · rw [← hd₁]
        exact hget'
      · rw [hr', ← hr, jobRunId, hget]
        rfl
  have hof₁ : d₁.core.engine.OfRun r jobId := by
    rw [← hd₁, ← hr]
    exact ofRun_congr (hsame.job jobId) (ofRun_jobRunId d jobId)
  have hplanned : ∀ d₂, (if d.hasRole jobId "planner" then d₁.plannerOutput w r jobId artifacts
      else .ok d₁) = .ok d₂ → Takes w (Owing r) d d₂ ∧
        (Timely w d.core → d₂.core.engine.OfRun r jobId) := by
    intro d₂ h
    split at h
    · rename_i hrole
      refine ⟨hfirst.then (takes_plannerOutput (hjob hrole) (Or.inl h)), ?_⟩
      intro ht
      obtain ⟨l, _, _, _, _, ht₁⟩ := hfirst ht
      exact plannerOutput_ofRun ht₁ (hjob hrole) h
    · cases h
      exact ⟨hfirst, fun _ => hof₁⟩
  have hreviewed : ∀ d₂ d₃, (if d₂.hasRole jobId "reviewer" then d₂.reviewerOutput w r jobId
      else .ok d₂) = .ok d₃ ∨ (if d₂.hasRole jobId "reviewer" then d₂.reviewerOutput w r jobId
      else .ok d₂) = .error d₃ → d₂.core.engine.OfRun r jobId → Takes w (Owing r) d₂ d₃ := by
    intro d₂ d₃ h hof
    split at h
    · exact takes_reviewerOutput hof h
    · rcases h with h | h <;> cases h
      exact .of_untouched (.nil r) (.refl d₂)
  rw [jobCompleted_eq, hr, hd₁]
  cases hp : (if d.hasRole jobId "planner" then d₁.plannerOutput w r jobId artifacts
      else .ok d₁) with
  | error d₂ =>
    refine ⟨fun h => (by cases h), fun h => ?_⟩
    cases h
    split at hp
    · rename_i hrole
      exact hfirst.then (takes_plannerOutput (hjob hrole) (Or.inr hp))
    · cases hp
  | ok d₂ =>
    obtain ⟨htakes, hof⟩ := hplanned d₂ hp
    cases hv : (if d₂.hasRole jobId "reviewer" then d₂.reviewerOutput w r jobId else .ok d₂) with
    | error d₃ =>
      refine ⟨fun h => (by simp [hv] at h), fun h => ?_⟩
      simp only [hv] at h
      cases h
      exact fun ht => (htakes.then (hreviewed d₂ _ (Or.inr hv) (hof ht))) ht
    | ok d₃ =>
      refine ⟨fun h => ?_, fun h => (by simp [hv] at h)⟩
      simp only [hv] at h
      cases h
      exact fun ht =>
        takes_finish (htakes.then (hreviewed d₂ d₃ (Or.inl hv) (hof ht))) ht

/-- A failure's calls are for the run of the job: kills, and the failure itself. -/
theorem takes_failed (w : World) (d : Daemon) {d₀ : Daemon} (jobId : JobId) (error : String)
    (h : Untouched d d₀) : Takes w (Owing (d.jobRunId jobId)) d
      ((handleChannelPeerFailures w (d.jobRunId jobId) jobId d₀).act w
        (.call (d.jobRunId jobId) (.markFailed jobId error))) := by
  have hr : d.jobRunId jobId = d₀.jobRunId jobId := by
    rw [jobRunId, jobRunId, engine, engine, h.1]
  have hpeers := h.takes (takes_handleChannelPeerFailures (w := w) jobId hr)
  refine hpeers.then (takes_call (fun ht => ⟨ht.2, ?_⟩))
  refine ofRun_congr ((same_handleChannelPeerFailures w _ jobId d₀).job jobId) ?_
  rw [hr]
  exact ofRun_jobRunId d₀ jobId

theorem takes_failJob (w : World) (d : Daemon) {d₀ : Daemon} (jobId : JobId) (error : String)
    (h : Untouched d d₀) : Takes w Settled d (finish w (d.jobRunId jobId)
      ((handleChannelPeerFailures w (d.jobRunId jobId) jobId d₀).act w
        (.call (d.jobRunId jobId) (.markFailed jobId error)))) :=
  takes_finish (takes_failed w d jobId error h)

theorem takes_jobFailed (w : World) (d : Daemon) (jobId : JobId) (error : String) :
    Takes w Settled d (d.jobFailed w jobId error) := takes_failJob w d jobId error ⟨rfl, rfl⟩

theorem ofRun_channelRunId (d : Daemon) (chId : ChannelId) :
    ∀ chan, d.engine.store.getChannel chId = some chan → chan.runId = d.channelRunId chId := by
  intro chan hchan
  rw [channelRunId, hchan]
  rfl

theorem takes_channelMessage (w : World) (d : Daemon) (chId fromJob content : String) :
    Takes w Settled d (d.channelMessage w chId fromJob content) := by
  have hcall : Takes w (Owing (d.channelRunId chId)) d
      (d.act w (.call (d.channelRunId chId) (.routeChannelMessage chId fromJob content))) :=
    takes_call (fun ht => ⟨ht.2, ofRun_channelRunId d chId⟩)
  have hstep := channelStep_route (w := w) (e := d.engine) chId fromJob content
  unfold channelMessage
  refine takes_finish ?_
  split
  · exact hcall.untouched (untouched_routeTo ..)
  · exact hcall.untouched (untouched_foldl (untouched_routeTo _ _) _ _)
  · rename_i chId' hclose
    refine hcall.then (takes_completeClosedChannelParticipants ?_)
    intro chan hchan
    obtain ⟨chan₀, hchan₀, hr, _⟩ := hstep.before hchan
    rw [route_close hclose] at hchan₀
    exact hr.trans (ofRun_channelRunId d chId chan₀ hchan₀)
  · exact hcall

theorem takes_channelDone (w : World) (d : Daemon) (chId fromJob : String) :
    Takes w Settled d (d.channelDone w chId fromJob) := by
  have hcall : Takes w (Owing (d.channelRunId chId)) d
      (d.act w (.call (d.channelRunId chId) (.handleChannelDone chId fromJob))) :=
    takes_call (fun ht => ⟨ht.2, ofRun_channelRunId d chId⟩)
  have hstep := channelStep_done (e := d.engine) chId fromJob
  unfold channelDone
  refine takes_finish ?_
  split
  · refine hcall.then (takes_completeClosedChannelParticipants ?_)
    intro chan hchan
    obtain ⟨chan₀, hchan₀, hr, _⟩ := hstep.before hchan
    exact hr.trans (ofRun_channelRunId d chId chan₀ hchan₀)
  · exact hcall

/-- An action after which nothing has to be persisted settles itself. -/
theorem takes_settled {a : Action} (ha : a ≠ .hydrate) (hfree : a.owes = none)
    (hl : Timely w d.core → Legal d.core (w, a)) : Takes w Settled d (d.act w a) := by
  refine Takes.act ha hl ⟨?_, True.intro⟩
  intro r hr
  rw [hfree] at hr
  cases hr

theorem Untouched.settled (h : Untouched d₁ d₂) : Takes w Settled d₁ d₂ :=
  .of_untouched True.intro h

/-- A loop of settled rounds is settled. -/
theorem settled_foldl {α : Type} {f : Daemon → α → Daemon}
    (hf : ∀ d a, Takes w Settled d (f d a)) (l : List α) (d : Daemon) :
    Takes w Settled d (l.foldl f d) :=
  (takes_foldl (P := fun _ => True) True.intro (fun _ _ => Settled.append) l
    (fun d a _ _ => ⟨hf d a, True.intro⟩) d True.intro).1

theorem takes_heartbeat (w : World) (d : Daemon) (jobId : JobId) :
    Takes w Settled d (d.act w (.call "" (.recordHeartbeat jobId))) :=
  takes_settled (fun h => by cases h) rfl (fun ht => ⟨ht.2, True.intro⟩)

theorem takes_artifactProduced (w : World) (d : Daemon) (event : Json) :
    Takes w Settled d (d.artifactProduced w event) := by
  have hpersist : Takes w Settled d (d.act w (.persistArtifact (d.announcedArtifact w event))) :=
    takes_settled (fun h => by cases h) rfl (fun ht => ⟨ht.2, True.intro⟩)
  exact hpersist.andThen
    (takes_settled (fun h => by cases h) rfl (fun ht => ⟨ht.2, True.intro⟩))

/-- Every event is settled, or a slice aborts it. -/
theorem takes_handleEvent (w : World) (d : Daemon) (event : Json) (d' : Daemon) :
    (d.handleEvent w event = .ok d' → Takes w Settled d d') ∧
      (d.handleEvent w event = .error d' → ∃ r, Takes w (Owing r) d d') := by
  unfold handleEvent
  dsimp only
  split
  · refine ⟨fun h => ?_, fun h => (by cases h)⟩
    cases h
    exact takes_heartbeat w d _
  · refine ⟨fun h => ?_, fun h => (by cases h)⟩
    cases h
    exact takes_heartbeat w d _
  · obtain ⟨hok, herror⟩ := takes_jobCompleted w d (event.strOr "job_id" "")
      (event.strings "output_artifact_ids") d'
    exact ⟨hok, fun h => ⟨_, herror h⟩⟩
  · refine ⟨fun h => ?_, fun h => (by cases h)⟩
    cases h
    exact takes_jobFailed w d _ _
  · refine ⟨fun h => ?_, fun h => (by cases h)⟩
    cases h
    exact takes_channelMessage w d _ _ _
  · refine ⟨fun h => ?_, fun h => (by cases h)⟩
    cases h
    exact takes_channelDone w d _ _
  · refine ⟨fun h => ?_, fun h => (by cases h)⟩
    cases h
    exact takes_artifactProduced w d event
  · refine ⟨fun h => ?_, fun h => (by cases h)⟩
    cases h
    exact (Untouched.refl d).settled

/-! ## Agents and commands -/

theorem untouched_agentUpdate (w : World) (d : Daemon) (update : AgentStateUpdate) :
    Untouched d (d.agentUpdate w update) := by
  unfold agentUpdate
  split
  · exact .refl d
  · exact ⟨rfl, rfl⟩

theorem untouched_startConfigured (d : Daemon) (name done : String) :
    Untouched d (d.startConfigured name done) := by
  unfold startConfigured
  split <;> exact ⟨rfl, rfl⟩

theorem untouched_startAgent (d : Daemon) (name : String) : Untouched d (d.startAgent name) := by
  have hmanaged : Untouched d (d.removeManaged name) := ⟨rfl, rfl⟩
  unfold startAgent
  split
  · split
    · exact untouched_send d _
    · exact hmanaged.trans (untouched_startConfigured ..)
  · exact untouched_startConfigured ..

theorem untouched_restartAgent (d : Daemon) (name : String) : Untouched d (d.restartAgent name) :=
  (untouched_dropWorker d name).trans (untouched_startConfigured ..)

theorem takes_submitRun (w : World) (d : Daemon) (task : String) :
    Takes w Settled d (d.submitRun w task) := by
  have hcall : Takes w (Owing (d.engine.submitRun w task).1) d
      (d.act w (.call (d.engine.submitRun w task).1 (.submitRun task))) :=
    takes_call (fun ht => ⟨ht.2, rfl⟩)
  exact (takes_finish hcall).untouched (untouched_send _ _)

theorem untouched_stopWorkersOf (w : World) (d : Daemon) (r : RunId) :
    Untouched d (d.stopWorkersOf w r) :=
  untouched_foldl (fun d (entry : JobId × JobStatus) =>
    untouched_dropWorker d (workerName entry.1)) _ d

theorem takes_cancelRun (w : World) (d : Daemon) (r : RunId) :
    Takes w (Owing r) d (d.cancelRun w r).2 := by
  unfold Daemon.cancelRun
  split
  · exact .of_untouched (.nil r) (.refl d)
  · exact (untouched_stopWorkersOf w d r).takes (takes_call (fun ht => ⟨ht.2, rfl⟩))

/-- Cancelling a run and persisting it is settled. -/
theorem takes_cancelled (w : World) (d : Daemon) (r : RunId) :
    Takes w Settled d ((d.cancelRun w r).2.act w (.persistRunState r)) := by
  intro ht
  obtain ⟨l, hcalls, hcore, hlegal, howing, ht'⟩ := takes_cancelRun w d r ht
  have hl : Legal (d.cancelRun w r).2.core (w, .persistRunState r) := ⟨ht'.2, True.intro⟩
  refine ⟨l ++ [(w, .persistRunState r)], ?_, ?_, ?_, howing.settled w,
    ht'.act (fun h => by cases h) hl⟩
  · show (d.cancelRun w r).2.calls ++ _ = _
    rw [hcalls, List.append_assoc]
  · have hlast : ((d.cancelRun w r).2.act w (.persistRunState r)).core =
        (d.cancelRun w r).2.core.act w (.persistRunState r) := rfl
    rw [hlast, hcore, run_append]
    rfl
  · exact Meets.append.mpr ⟨hlegal, hcore ▸ hl, True.intro⟩

theorem handleCommand_cancelRun (w : World) (d : Daemon) (r : RunId) :
    d.handleCommand w (.cancelRun r) = match d.cancelRun w r with
      | (.ok message, d) => (d.act w (.persistRunState r)).send (.reply (.ok message))
      | (.error e, d) => d.send (.reply (.error e)) := rfl

theorem takes_handleCommand (w : World) (d : Daemon) (command : DaemonCommand) :
    Takes w Settled d (d.handleCommand w command) := by
  cases command with
  | start name => exact (untouched_startAgent d name).settled
  | restart name => exact (untouched_restartAgent d name).settled
  | submitRun task => exact takes_submitRun w d task
  | cancelRun r =>
    have hc := takes_cancelled w d r
    rw [handleCommand_cancelRun]
    cases hres : d.cancelRun w r with
    | mk result d' =>
      rw [hres] at hc
      cases result with
      | ok message => exact hc.untouched (untouched_send _ _)
      | error err =>
        have hsame : d' = d := by
          unfold Daemon.cancelRun at hres
          split at hres <;> cases hres
          rfl
        subst hsame
        exact (untouched_send d' _).settled
  | getRunStatus r => exact (Untouched.refl d).settled
  | listRuns => exact (Untouched.refl d).settled
  | getRunResult r => exact (Untouched.refl d).settled
  | getMetrics => exact (Untouched.refl d).settled

/-! ## Poll ticks -/

theorem untouched_reloadConfig (w : World) (d : Daemon) : Untouched d (d.reloadConfig w) := by
  unfold reloadConfig
  split
  · exact .refl d
  · split
    · exact .refl d
    · have hdrop : ∀ (names : List String) d, Untouched d (names.foldl
          (fun d name => (d.stopWorker name).removeManaged name) d) :=
        untouched_foldl (fun d name => untouched_dropWorker d name)
      have hadd : ∀ (agents : List AgentConfig) d, Untouched d (agents.foldl (fun d agent =>
          if d.managed.contains agent.name then d else d.spawnManagedAgent agent) d) := by
        refine untouched_foldl (fun d agent => ?_)
        split
        · exact .refl d
        · exact ⟨rfl, rfl⟩
      exact ((hdrop _ d).trans (hadd _ _)).trans ⟨rfl, rfl⟩

theorem takes_refreshHeartbeats (w : World) (d : Daemon) :
    Takes w Settled d (d.refreshHeartbeats w) := by
  refine settled_foldl (fun d jobId => ?_) _ d
  split
  · exact takes_heartbeat w d jobId
  · exact (Untouched.refl d).settled

theorem takes_failStaleJob (w : World) (d : Daemon) (jobId : JobId) :
    Takes w Settled d (d.failStaleJob w jobId) :=
  takes_failJob w d jobId "heartbeat timeout" (untouched_dropWorker d (workerName jobId))

theorem takes_expireRun (w : World) (d : Daemon) (r : RunId) :
    Takes w Settled d (d.expireRun w r) := by
  have hfiles := untouched_foldl (fun d path => untouched_send d (.removeFile path))
    (d.engine.store.removeRun w r).1 d
  exact hfiles.takes (takes_settled (fun h => by cases h) rfl (fun ht => ⟨ht.2, True.intro⟩))

theorem takes_cleanup (w : World) (d : Daemon) : Takes w Settled d (d.cleanup w) := by
  unfold cleanup
  split
  · have hnow : Untouched d { d with lastCleanup := w.instant } := ⟨rfl, rfl⟩
    exact hnow.takes (settled_foldl (takes_expireRun w) _ _)
  · exact (Untouched.refl d).settled

theorem untouched_restartAgents (w : World) (d : Daemon) : Untouched d (d.restartAgents w) := by
  refine untouched_foldl (fun d name => ?_) _ d
  unfold restartDue
  split
  · exact .refl d
  · exact ⟨rfl, rfl⟩

theorem takes_tick (w : World) (d : Daemon) : Takes w Settled d (d.tick w) := by
  have hstale : Takes w Settled (refreshHeartbeats w (reloadConfig w d))
      (handleStaleJobs w (refreshHeartbeats w (reloadConfig w d))) :=
    settled_foldl (takes_failStaleJob w) _ _
  exact (((untouched_reloadConfig w d).takes (takes_refreshHeartbeats w _)).andThen
    (hstale.andThen (takes_cleanup w _))).untouched (untouched_restartAgents w _)

theorem takes_shutdown (w : World) (d : Daemon) : Takes w Settled d (d.shutdown w) := by
  have hcancel : ∀ runs : List RunId, Takes w Settled d
      (runs.foldl (fun d r => (d.cancelRun w r).2.act w (.persistRunState r)) d) :=
    fun runs => settled_foldl (takes_cancelled w) runs d
  have hstop : ∀ (names : List String) (d : Daemon), Untouched d
      { names.foldl (fun d name => d.send (.stop name)) d with alive := false } :=
    fun names d => (untouched_foldl (fun d name => untouched_send d (.stop name)) names d).trans
      ⟨rfl, rfl⟩
  exact (hcancel _).untouched (hstop _ _)

/-! ## One step of the daemon -/

theorem boot_calls (w : World) (d : Daemon) : ∃ l, (d.boot w).calls = d.calls ++ l ∧
    (d.boot w).core = run coreStep d.core l ∧
    (l = [] ∧ (d.boot w).alive = false ∨ l = [(w, .hydrate)]) := by
  unfold boot
  split
  · exact ⟨[], by simp, rfl, Or.inl ⟨rfl, rfl⟩⟩
  · dsimp only
    have hagents : ∀ (agents : List AgentConfig) d, Untouched d
        (agents.foldl spawnManagedAgent d) := untouched_foldl (fun d agent => ⟨rfl, rfl⟩)
    refine ⟨[(w, .hydrate)], ?_, ?_, Or.inr rfl⟩
    · exact (hagents _ _).2
    · exact (hagents _ _).1

/-- A process that is running hands the input to its handler. -/
theorem step_of_alive {d d₀ : Daemon} (hd₀ : d₀ = { d with sent := [], calls := [] })
    (halive : d.alive = true) (w : World) (i : Input) :
    d.step (w, i) = match d₀.handle w i with
      | .ok d' => d'
      | .error d' => { d' with alive := false } := by
  subst hd₀
  obtain ⟨alive, core, managed, config, hash, cleanup, sandbox, capsule, sent, calls⟩ := d
  cases halive
  rfl

/-- One that is not only ever starts. -/
theorem step_of_dead {d d₀ : Daemon} (hd₀ : d₀ = { d with sent := [], calls := [] })
    (hdead : d.alive = false) (w : World) (i : Input) :
    d.step (w, i) = match i with
      | .start => d₀.boot w
      | _ => d₀ := by
  subst hd₀
  obtain ⟨alive, core, managed, config, hash, cleanup, sandbox, capsule, sent, calls⟩ := d
  cases hdead
  cases i <;> rfl

/-- A step takes legal actions from a sound state to a sound one. If the process
is alive after it, it has persisted every run it has made calls for. -/
theorem step_takes {d : Daemon} {w : World} (i : Input) (ht : Timely w d.core) :
    let d' := d.step (w, i)
    d'.core = run coreStep d.core d'.calls ∧ Meets coreStep Legal d.core d'.calls ∧
      Sound d'.core ∧ (d'.alive = true → Settled d'.calls) := by
  dsimp only
  have hboot : ∀ d₀ : Daemon, d₀.core = d.core → d₀.calls = [] →
      (d₀.boot w).core = run coreStep d.core (d₀.boot w).calls ∧
        Meets coreStep Legal d.core (d₀.boot w).calls ∧ Sound (d₀.boot w).core ∧
        ((d₀.boot w).alive = true → Settled (d₀.boot w).calls) := by
    intro d₀ hcore₀ hcalls₀
    obtain ⟨l, hcalls, hcore, hl⟩ := boot_calls w d₀
    rw [hcalls₀, List.nil_append] at hcalls
    rw [hcalls, hcore, hcore₀]
    rcases hl with ⟨rfl, _⟩ | rfl
    · exact ⟨rfl, True.intro, ht.1, fun _ => True.intro⟩
    · have hl : Legal d.core (w, .hydrate) := ⟨ht.2, True.intro⟩
      exact ⟨rfl, ⟨hl, True.intro⟩, sound_act ht.1 hl,
        fun _ => ⟨fun r hr => (by cases hr), True.intro⟩⟩
  have hdone : ∀ {S : List (World × Action) → Prop} {d₀ d' : Daemon}, d₀.core = d.core →
      d₀.calls = [] → Takes w S d₀ d' → d'.core = run coreStep d.core d'.calls ∧
        Meets coreStep Legal d.core d'.calls ∧ Sound d'.core ∧ S d'.calls := by
    intro S d₀ d' hcore₀ hcalls₀ h
    obtain ⟨l, hcalls, hcore, hlegal, hs, ht'⟩ := h (hcore₀ ▸ ht)
    rw [hcalls₀, List.nil_append] at hcalls
    rw [hcalls, ← hcore₀]
    exact ⟨hcore, hlegal, ht'.1, hs⟩
  obtain ⟨d₀, hd₀⟩ : ∃ d₀, d₀ = { d with sent := [], calls := [] } := ⟨_, rfl⟩
  have hcore₀ : d₀.core = d.core := by rw [hd₀]
  have hcalls₀ : d₀.calls = [] := by rw [hd₀]
  have hsettled : ∀ {d'}, Takes w Settled d₀ d' → d'.core = run coreStep d.core d'.calls ∧
      Meets coreStep Legal d.core d'.calls ∧ Sound d'.core ∧
        (d'.alive = true → Settled d'.calls) := by
    intro d' h
    obtain ⟨h₁, h₂, h₃, h₄⟩ := hdone hcore₀ hcalls₀ h
    exact ⟨h₁, h₂, h₃, fun _ => h₄⟩
  cases halive : d.alive with
  | false =>
    rw [step_of_dead hd₀ halive]
    cases i with
    | start => exact hboot d₀ hcore₀ hcalls₀
    | _ => exact hsettled (Untouched.refl d₀).settled
  | true =>
    rw [step_of_alive hd₀ halive]
    cases i with
    | update u => exact hsettled (untouched_agentUpdate w d₀ u).settled
    | command c => exact hsettled (takes_handleCommand w d₀ c)
    | event v =>
      obtain ⟨hok, herror⟩ : (∀ d', d₀.handleEvent w v = .ok d' → Takes w Settled d₀ d') ∧
          (∀ d', d₀.handleEvent w v = .error d' → ∃ r, Takes w (Owing r) d₀ d') :=
        ⟨fun d' => (takes_handleEvent w d₀ v d').1, fun d' => (takes_handleEvent w d₀ v d').2⟩
      dsimp only [handle]
      cases hv : d₀.handleEvent w v with
      | ok d' => exact hsettled (hok d' hv)
      | error d' =>
        obtain ⟨r, htakes⟩ := herror d' hv
        -- an aborted step owes a write, but then there is no process left
        obtain ⟨h₁, h₂, h₃, _⟩ := hdone hcore₀ hcalls₀ htakes
        exact ⟨h₁, h₂, h₃, fun h => (by cases h)⟩
    | tick => exact hsettled (takes_tick w d₀)
    | shutdown => exact hsettled (takes_shutdown w d₀)
    | start => exact hboot d₀ hcore₀ hcalls₀

end

end ZeptoPM
