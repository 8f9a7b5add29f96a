import ZeptoPM.Attempts
import ZeptoPM.Passing
import ZeptoPM.Traversal
import Mathlib.Data.List.Flatten
import Mathlib.Data.List.Perm.Subperm

/- What a poll tick takes from jobs. The stale jobs are listed once and dealt with one
   after the other, each with its peers, while slots that become free are given away at
   once: what the list says of a later job may be out of date when its turn comes.
   `Deals` collects what the daemon does in a turn and which jobs it fails, the turns add up
   in `turns_staleJobs`. A tick costs no job more than one attempt exactly if no job is at
   risk twice and every job of the list is still stale when its turn comes
   (`ticks_costOneAttempt`). -/
namespace ZeptoPM
open OrchestratorEngine Daemon

/-! ## What a list of actions costs -/

/-- The job that the action fails. -/
def failedBy (x : World × Action) : Option JobId :=
  match x.2 with
  | .call _ (.markFailed k _) => some k
  | _ => none

/-- The job that the action fails for want of a heartbeat. -/
def timedOutBy (x : World × Action) : Option JobId :=
  match x.2 with
  | .call _ (.markFailed k err) => if err = "heartbeat timeout" then some k else none
  | _ => none

/-- The channel that the action closes for the failure of a participant. -/
def closedBy (x : World × Action) : Option ChannelId :=
  match x.2 with
  | .call _ (.handleChannelPeerFailure chId _) => some chId
  | _ => none

/-- The jobs that the actions fail, as often as they do. -/
def failedIn (l : List (World × Action)) : List JobId := l.filterMap failedBy

/-- No job is failed for want of a heartbeat after one of the actions has started it. -/
def SparesStarted (c : Core) (l : List (World × Action)) : Prop :=
  ∀ pre x post k, l = pre ++ x :: post → timedOutBy x = some k → startsOf k c pre = 0

/-- Each job is failed at most once, and not for a heartbeat timeout once it has been
started again. -/
structure CostsOneAttempt (c : Core) (l : List (World × Action)) : Prop where
  once : (failedIn l).Nodup
  fresh : SparesStarted c l

/-! ## The condition -/

/-- The other participants that are killed when the job fails. -/
def Channel.kills (s : JobId) (c : Channel) : List JobId :=
  if c.onPeerFailure = .killAll then c.participants.filter (fun p => p != s) else []

/-- The engine has the channel, and it is active. -/
def OrchestratorEngine.isActive (e : OrchestratorEngine) (k : ChannelId) : Bool :=
  (e.store.getChannel k).any (·.active)

/-- The jobs that the turn of the job, in the state `e` of a tick that has found its stale jobs
in `e₀`, puts at risk: its peers in the `kill_all` channels that were active then or have been
activated since, once for each such channel, and the job itself. -/
def OrchestratorEngine.atRisk (w : World) (e₀ e : OrchestratorEngine) (s : JobId) : List JobId :=
  ((e₀.store.allChannelsForJob w s).filter
    (fun c => c.active || e.isActive c.channelId)).flatMap (Channel.kills s) ++ [s]

namespace Daemon

/-- The daemon when the tick looks for stale jobs. -/
def beforeStale (w : World) (d : Daemon) : Daemon := refreshHeartbeats w (reloadConfig w d.fresh)

/-- The jobs at risk in the turns of the stale jobs. -/
def atRisk (w : World) (e₀ : OrchestratorEngine) : List JobId → Daemon → List JobId
  | [], _ => []
  | s :: stale, d => e₀.atRisk w d.engine s ++ atRisk w e₀ stale (failStaleJob w d s)

/-- The job whose turn it is has given no heartbeat for long enough. -/
def StillStale (w : World) (d : Daemon) (s : JobId) : Prop := s ∈ d.engine.staleJobs w 120000

instance (w : World) (d : Daemon) (s : JobId) : Decidable (d.StillStale w s) :=
  inferInstanceAs (Decidable (_ ∈ _))

/-- The stale jobs put no job at risk twice, and each of them is still stale when its turn
comes. -/
def RisksOnce (w : World) (d : Daemon) : Prop :=
  let e := (d.beforeStale w).engine
  ((d.beforeStale w).atRisk w e (e.staleJobs w 120000)).Nodup ∧
    Meets (failStaleJob w) (StillStale w) (d.beforeStale w) (e.staleJobs w 120000)

instance (w : World) (d : Daemon) : Decidable (d.RisksOnce w) :=
  inferInstanceAs (Decidable (_ ∧ Meets _ _ _ _))

end Daemon

/-! ## Lists of actions -/

section
variable {c : Core} {l l₁ l₂ : List (World × Action)} {k : JobId}

@[simp] theorem failedIn_append : failedIn (l₁ ++ l₂) = failedIn l₁ ++ failedIn l₂ :=
  List.filterMap_append

theorem startsOf_append : startsOf k c (l₁ ++ l₂) =
    startsOf k c l₁ + startsOf k (run coreStep c l₁) l₂ := by
  induction l₁ generalizing c with
  | nil => exact (Nat.zero_add _).symm
  | cons x l₁ ih =>
    show _ + startsOf k (coreStep c x) (l₁ ++ l₂) = _ + _ + _
    rw [ih, Nat.add_assoc]
    rfl

/-- An action that starts no job. -/
theorem notStarted_of_starts {x : World × Action} (h : x.2.starts = false) : NotStarted k c x := by
  intro hk
  obtain ⟨w, r, rfl, _⟩ := startedBy_eq_some hk
  cases h

theorem startsOf_eq_zero (h : ∀ x ∈ l, x.2.starts = false) : startsOf k c l = 0 := by
  induction l generalizing c with
  | nil => rfl
  | cons x l ih =>
    rw [startsOf, if_pos (notStarted_of_starts (h x List.mem_cons_self)),
      ih (fun y hy => h y (List.mem_cons_of_mem x hy))]

/-- What is spared in a list is spared in a part of it. -/
theorem SparesStarted.parts (h : SparesStarted c (l₁ ++ l₂)) :
    SparesStarted c l₁ ∧ SparesStarted (run coreStep c l₁) l₂ ∧
      ∀ x ∈ l₂, ∀ k, timedOutBy x = some k → startsOf k c l₁ = 0 := by
  have hlater : ∀ pre x post k, l₂ = pre ++ x :: post → timedOutBy x = some k →
      startsOf k c l₁ = 0 ∧ startsOf k (run coreStep c l₁) pre = 0 := by
    intro pre x post k hl hx
    have hzero := h (l₁ ++ pre) x post k (by rw [hl, List.append_assoc]) hx
    rw [startsOf_append] at hzero
    exact Nat.add_eq_zero_iff.mp hzero
  refine ⟨fun pre x post k hl hx => ?_, fun pre x post k hl hx => (hlater pre x post k hl hx).2,
    fun x hx k hk => ?_⟩
  · exact h pre x (post ++ l₂) k (by rw [hl, List.append_assoc, List.cons_append]) hx
  · obtain ⟨pre, post, hl⟩ := List.append_of_mem hx
    exact (hlater pre x post k hl hk).1

theorem SparesStarted.append (h₁ : SparesStarted c l₁) (h₂ : SparesStarted (run coreStep c l₁) l₂)
    (h : ∀ x ∈ l₂, ∀ k, timedOutBy x = some k → startsOf k c l₁ = 0) :
    SparesStarted c (l₁ ++ l₂) := by
  intro pre x post k hl hx
  rcases List.append_eq_append_iff.mp hl with ⟨rest, rfl, hl₂⟩ | ⟨rest, rfl, hrest⟩
  · rw [startsOf_append, h₂ rest x post k hl₂ hx,
      h x (hl₂ ▸ List.mem_append_right _ List.mem_cons_self) k hx]
  · cases rest with
    | nil =>
      rw [List.nil_append] at hrest
      rw [List.append_nil] at h
      exact h x (hrest ▸ List.mem_cons_self) k hx
    | cons y rest =>
      obtain ⟨rfl, _⟩ := List.cons.inj hrest
      exact h₁ pre x rest k rfl hx

/-- Actions none of which fails a job for want of a heartbeat. -/
theorem sparesStarted_of_none (h : ∀ x ∈ l, timedOutBy x = none) : SparesStarted c l := by
  intro pre x post k hl hx
  rw [h x (hl ▸ List.mem_append_right pre List.mem_cons_self)] at hx
  cases hx

theorem failedIn_eq_nil (h : ∀ x ∈ l, failedBy x = none) : failedIn l = [] :=
  List.filterMap_eq_nil_iff.mpr h

theorem mem_failedIn_of_timedOut {x : World × Action} (hx : x ∈ l) (h : timedOutBy x = some k) :
    k ∈ failedIn l := by
  refine List.mem_filterMap.mpr ⟨x, hx, ?_⟩
  obtain ⟨w, a⟩ := x
  unfold timedOutBy at h
  unfold failedBy
  split at h
  · split at h
    · exact h
    · cases h
  · cases h

end

/-! ## Channels keep their terms -/

/-- What a failure asks of a channel. -/
def Channel.terms (c : Channel) : List JobId × PeerFailure := (c.participants, c.onPeerFailure)

/-- Channels have kept their participants and policies. -/
def SameTerms (e e' : OrchestratorEngine) : Prop :=
  ∀ k, (e'.store.getChannel k).map Channel.terms = (e.store.getChannel k).map Channel.terms

theorem SameTerms.refl (e : OrchestratorEngine) : SameTerms e e := fun _ => rfl

theorem SameTerms.before {e e' : OrchestratorEngine} (h : SameTerms e e') {k : ChannelId}
    {c' : Channel} (hc' : e'.store.getChannel k = some c') : ∃ c, e.store.getChannel k = some c ∧
      c'.participants = c.participants ∧ c'.onPeerFailure = c.onPeerFailure := by
  have hterms := h k
  rw [hc', Option.map_some] at hterms
  obtain ⟨c, hc, heq⟩ := Option.map_eq_some_iff.mp hterms.symm
  obtain ⟨hparts, hpolicy⟩ := Prod.mk.inj heq
  exact ⟨c, hc, hparts.symm, hpolicy.symm⟩

theorem SameTerms.trans {e₁ e₂ e₃ : OrchestratorEngine} (h₁ : SameTerms e₁ e₂)
    (h₂ : SameTerms e₂ e₃) : SameTerms e₁ e₃ := fun k => (h₂ k).trans (h₁ k)

/-- The actions with which stale jobs are dealt with. -/
def Action.deals : Action → Bool
  | .call _ (.handleChannelPeerFailure _ _) | .call _ (.markFailed _ _) | .call _ .startNext => true
  | .call _ .activateReadyChannels | .persistRunState _ => true
  | _ => false

/-- What an action that deals with stale jobs makes of a channel. -/
theorem channel_deals {c : Core} {x : World × Action} (h : x.2.deals = true) (k : ChannelId) :
    ∃ g : Channel → Channel,
      (coreStep c x).engine.store.getChannel k = (c.engine.store.getChannel k).map g ∧
      ∀ ch, (g ch).terms = ch.terms ∧
        (closedBy x ≠ some k → ch.active = true → (g ch).active = true) := by
  obtain ⟨w, a⟩ := x
  have hsame : (coreStep c (w, a)).engine.store.getChannel k = c.engine.store.getChannel k →
      ∃ g : Channel → Channel,
        (coreStep c (w, a)).engine.store.getChannel k = (c.engine.store.getChannel k).map g ∧
        ∀ ch, (g ch).terms = ch.terms ∧
          (closedBy (w, a) ≠ some k → ch.active = true → (g ch).active = true) :=
    fun heq => ⟨id, by rw [heq, Option.map_id_fun, id], fun ch => ⟨rfl, fun _ => id⟩⟩
  cases a with
  | persistRunState r => exact hsame rfl
  | call r f =>
    cases f with
    | startNext => exact hsame (getChannel_spared w c.engine (f := .startNext) rfl k)
    | markFailed j err => exact hsame (getChannel_spared w c.engine (f := .markFailed j err) rfl k)
    | activateReadyChannels =>
      refine ⟨_, getChannel_activate w c.engine k, fun ch => ?_⟩
      split
      · exact ⟨rfl, fun _ _ => rfl⟩
      · exact ⟨rfl, fun _ => id⟩
    | handleChannelPeerFailure chId j =>
      by_cases hk : k = chId
      · refine ⟨Channel.close, ?_, fun ch => ⟨rfl, fun hne => ?_⟩⟩
        · exact (getChannel_peerFailure ..).trans (by rw [if_pos hk, hk])
        · exact absurd (congrArg some hk.symm) hne
      · exact hsame ((getChannel_peerFailure ..).trans (if_neg hk))
    | _ => cases h
  | _ => cases h

theorem sameTerms_act {c : Core} {x : World × Action} (h : x.2.deals = true) :
    SameTerms c.engine (coreStep c x).engine := by
  intro k
  obtain ⟨g, hget, hg⟩ := channel_deals h k
  rw [hget, Option.map_map]
  exact congrFun (congrArg Option.map (funext fun ch => (hg ch).1)) _

theorem sameTerms_run {l : List (World × Action)} : ∀ {c : Core}, (∀ x ∈ l, x.2.deals = true) →
    SameTerms c.engine (run coreStep c l).engine := by
  induction l with
  | nil => exact fun _ => .refl _
  | cons x l ih =>
    intro c h
    exact (sameTerms_act (h x List.mem_cons_self)).trans
      (ih fun y hy => h y (List.mem_cons_of_mem x hy))

/-- A channel about which no failure is reported stays active. -/
theorem active_run {l : List (World × Action)} {k : ChannelId} : ∀ {c : Core} {ch : Channel},
    (∀ x ∈ l, x.2.deals = true ∧ closedBy x ≠ some k) →
      c.engine.store.getChannel k = some ch → ch.active = true →
        ∃ ch', (run coreStep c l).engine.store.getChannel k = some ch' ∧ ch'.active = true := by
  induction l with
  | nil => exact fun _ hch hactive => ⟨_, hch, hactive⟩
  | cons x l ih =>
    intro c ch h hch hactive
    obtain ⟨hdeals, hne⟩ := h x List.mem_cons_self
    obtain ⟨g, hget, hg⟩ := channel_deals (c := c) hdeals k
    rw [hch, Option.map_some] at hget
    exact ih (fun y hy => h y (List.mem_cons_of_mem x hy)) hget ((hg ch).2 hne hactive)

/-! ## Who is stale -/

theorem mem_staleJobs {w : World} {e : OrchestratorEngine} {timeout : Nat} {k : JobId} :
    k ∈ e.staleJobs w timeout ↔ (∃ r, e.activeJobs.get k = some r) ∧
      ∀ t, e.lastHeartbeat.get k = some t → timeout < w.instant - t := by
  unfold OrchestratorEngine.staleJobs
  rw [List.mem_filter, HashMap.mem_keysIn]
  refine and_congr_right fun _ => ?_
  cases e.lastHeartbeat.get k with
  | none => exact iff_of_true rfl nofun
  | some t =>
    refine decide_eq_true_iff.trans ⟨fun h t' ht' => ?_, fun h => h t rfl⟩
    cases ht'
    exact h

/-- Who is active and when it was heard of is as before. -/
structure SameBeats (k : JobId) (e e' : OrchestratorEngine) : Prop where
  active : e'.activeJobs.get k = e.activeJobs.get k
  beat : e'.lastHeartbeat.get k = e.lastHeartbeat.get k

theorem SameBeats.staleJobs {w : World} {e e' : OrchestratorEngine} {k : JobId}
    (h : SameBeats k e e') : k ∈ e'.staleJobs w 120000 ↔ k ∈ e.staleJobs w 120000 := by
  rw [mem_staleJobs, mem_staleJobs, h.active, h.beat]

/-- An action that deals with stale jobs fails a job, starts it or leaves its heartbeat alone. -/
theorem beats_deals {c : Core} {x : World × Action} (h : x.2.deals = true) (k : JobId) :
    SameBeats k c.engine (coreStep c x).engine ∨
      failedBy x = some k ∧ (coreStep c x).engine.activeJobs.get k = none ∨
      startedBy c x = some k ∧ (coreStep c x).engine.lastHeartbeat.get k = some x.1.instant := by
  obtain ⟨w, a⟩ := x
  cases a with
  | persistRunState r => exact Or.inl ⟨rfl, rfl⟩
  | call r f =>
    cases f with
    | startNext =>
      rcases startNext_cases w c.engine with ⟨q, heq, _⟩ | ⟨job, q, _, _, _, heq⟩
      · have hstep : (coreStep c (w, .call r .startNext)).engine =
            { c.engine with readyQueue := q } := congrArg Prod.snd heq
        rw [hstep]
        exact Or.inl ⟨rfl, rfl⟩
      · have hstep : (coreStep c (w, .call r .startNext)).engine = c.engine.started w job q :=
          congrArg Prod.snd heq
        rw [hstep]
        by_cases hk : k = job.jobId
        · refine Or.inr (Or.inr ⟨?_, ?_⟩)
          · show (c.engine.startNext w).1.map (·.jobId) = some k
            rw [heq, hk]
            rfl
          · exact (HashMap.get_insert ..).trans (if_pos hk)
        · exact Or.inl ⟨(HashMap.get_insert ..).trans (if_neg hk),
            (HashMap.get_insert ..).trans (if_neg hk)⟩
    | markFailed j err =>
      show SameBeats k c.engine (c.engine.markFailed w j err) ∨ some j = some k ∧
        (c.engine.markFailed w j err).activeJobs.get k = none ∨ _
      by_cases hk : k = j
      · rw [activeJobs_markFailed, HashMap.get_remove, if_pos hk]
        exact Or.inr (Or.inl ⟨congrArg some hk.symm, rfl⟩)
      · refine Or.inl ⟨?_, ?_⟩
        · rw [activeJobs_markFailed, HashMap.get_remove, if_neg hk]
        · rw [lastHeartbeat_markFailed, HashMap.get_remove, if_neg hk]
    | activateReadyChannels => exact Or.inl ⟨rfl, rfl⟩
    | handleChannelPeerFailure ch j =>
      have hstep := channelStep_peerFailure (e := c.engine) ch j
      exact Or.inl ⟨congrArg (fun m => m.get k) hstep.frame.activeJobs,
        congrArg (fun m => m.get k) hstep.lastHeartbeat⟩
    | _ => cases h
  | _ => cases h

section
variable {w : World} {k : JobId} {l : List (World × Action)}

/-- Nobody becomes stale while time stands still. -/
theorem notStale_run : ∀ {c : Core}, (∀ x ∈ l, x.2.deals = true ∧ x.1 = w) →
    k ∉ c.engine.staleJobs w 120000 → k ∉ (run coreStep c l).engine.staleJobs w 120000 := by
  induction l with
  | nil => exact fun _ h => h
  | cons x l ih =>
    intro c h hk
    obtain ⟨hdeals, hw⟩ := h x List.mem_cons_self
    refine ih (fun y hy => h y (List.mem_cons_of_mem x hy)) ?_
    rcases beats_deals (c := c) hdeals k with hsame | ⟨_, hnone⟩ | ⟨_, hbeat⟩
    · exact fun hmem => hk (hsame.staleJobs.mp hmem)
    · intro hmem
      obtain ⟨⟨r, hr⟩, _⟩ := mem_staleJobs.mp hmem
      rw [hnone] at hr
      cases hr
    · intro hmem
      have hlate := (mem_staleJobs.mp hmem).2 _ hbeat
      rw [hw, Nat.sub_self] at hlate
      exact absurd hlate (Nat.not_lt_zero _)

/-- A stale job that is not failed is stale still exactly if it has not been started. -/
theorem stillStale_run : ∀ {c : Core}, (∀ x ∈ l, x.2.deals = true ∧ x.1 = w) →
    k ∉ failedIn l → k ∈ c.engine.staleJobs w 120000 →
      (k ∈ (run coreStep c l).engine.staleJobs w 120000 ↔ startsOf k c l = 0) := by
  induction l with
  | nil => exact fun _ _ hk => iff_of_true hk rfl
  | cons x l ih =>
    intro c h hf hk
    obtain ⟨hdeals, hw⟩ := h x List.mem_cons_self
    have hrest : ∀ y ∈ l, y.2.deals = true ∧ y.1 = w := fun y hy => h y (List.mem_cons_of_mem x hy)
    have hfl : k ∉ failedIn l := by
      intro hmem
      obtain ⟨y, hy, heq⟩ := List.mem_filterMap.mp hmem
      exact hf (List.mem_filterMap.mpr ⟨y, List.mem_cons_of_mem x hy, heq⟩)
    by_cases hstart : NotStarted k c x
    · rw [run_cons, startsOf, if_pos hstart, Nat.zero_add]
      refine ih hrest hfl ?_
      rcases beats_deals (c := c) hdeals k with hsame | ⟨hfx, _⟩ | ⟨hsx, _⟩
      · exact hsame.staleJobs.mpr hk
      · exact absurd (List.mem_filterMap.mpr ⟨x, List.mem_cons_self, hfx⟩) hf
      · exact absurd hsx hstart
    · rw [run_cons, startsOf, if_neg hstart]
      refine iff_of_false (notStale_run hrest ?_) (by omega)
      obtain ⟨w', r, rfl, job, q, _, _, heq, rfl⟩ := startedBy_eq_some (not_not.mp hstart)
      intro hmem
      have hbeat : (coreStep c (w', .call r .startNext)).engine.lastHeartbeat.get job.jobId =
          some w'.instant := by
        show (c.engine.startNext w').2.lastHeartbeat.get job.jobId = _
        rw [heq]
        exact (HashMap.get_insert ..).trans (if_pos rfl)
      have hlate := (mem_staleJobs.mp hmem).2 _ hbeat
      rw [show w' = w from hw, Nat.sub_self] at hlate
      exact absurd hlate (Nat.not_lt_zero _)

end

/-! ## A turn -/

/-- The actions from `d` to `d'` satisfy `A` and fail the jobs of the list. -/
def Deals (A : World × Action → Prop) (F : List JobId) (d d' : Daemon) : Prop :=
  ∃ l, d'.calls = d.calls ++ l ∧ d'.core = run coreStep d.core l ∧ (∀ x ∈ l, A x) ∧ failedIn l = F

/-- What is done about the peers of a job in the given channels. -/
structure Peering (w : World) (ids : List ChannelId) (x : World × Action) : Prop where
  world : x.1 = w
  deals : x.2.deals = true
  starts : x.2.starts = false
  timedOut : timedOutBy x = none
  closes : ∀ k, closedBy x = some k → k ∈ ids

/-- What is done at the end of a turn. -/
structure Ending (w : World) (x : World × Action) : Prop where
  world : x.1 = w
  deals : x.2.deals = true
  failed : failedBy x = none
  closes : closedBy x = none

section
variable {A : World × Action → Prop} {F G : List JobId} {d d₁ d₂ d₃ : Daemon}

theorem Untouched.deals (h : Untouched d₁ d₂) : Deals A [] d₁ d₂ :=
  ⟨[], by rw [h.2, List.append_nil], h.1, fun _ hx => absurd hx List.not_mem_nil, rfl⟩

theorem Deals.trans (h₁ : Deals A F d₁ d₂) (h₂ : Deals A G d₂ d₃) : Deals A (F ++ G) d₁ d₃ := by
  obtain ⟨l₁, hcalls₁, hcore₁, hl₁, hf₁⟩ := h₁
  obtain ⟨l₂, hcalls₂, hcore₂, hl₂, hf₂⟩ := h₂
  refine ⟨l₁ ++ l₂, ?_, ?_, fun x hx => (List.mem_append.mp hx).elim (hl₁ x) (hl₂ x), ?_⟩
  · rw [hcalls₂, hcalls₁, List.append_assoc]
  · rw [hcore₂, hcore₁, run_append]
  · rw [failedIn_append, hf₁, hf₂]

theorem Deals.act {w : World} {a : Action} (ha : A (w, a)) (hf : failedIn [(w, a)] = F) :
    Deals A F d (d.act w a) :=
  ⟨[(w, a)], rfl, rfl, fun _ hx => List.mem_singleton.mp hx ▸ ha, hf⟩

theorem Deals.sameTerms (h : Deals A F d₁ d₂) (hA : ∀ {x}, A x → x.2.deals = true) :
    SameTerms d₁.engine d₂.engine := by
  obtain ⟨l, _, hcore, hl, _⟩ := h
  show SameTerms d₁.core.engine d₂.core.engine
  rw [hcore]
  exact sameTerms_run fun x hx => hA (hl x hx)

/-- A loop whose every round fails what it is to fail, as long as channels keep
their terms. -/
theorem deals_foldl {α : Type} {f : Daemon → α → Daemon} {g : α → List JobId}
    {e₀ : OrchestratorEngine} (hA : ∀ {x}, A x → x.2.deals = true) (l : List α)
    (hf : ∀ d, ∀ a ∈ l, SameTerms e₀ d.engine → Deals A (g a) d (f d a)) :
    ∀ d, SameTerms e₀ d.engine → Deals A (l.flatMap g) d (l.foldl f d) := by
  induction l with
  | nil => exact fun d _ => (Untouched.refl d).deals
  | cons a l ih =>
    intro d hd
    have hround := hf d a List.mem_cons_self hd
    exact hround.trans (ih (fun d b hb => hf d b (List.mem_cons_of_mem a hb)) _
      (hd.trans (hround.sameTerms hA)))

end

section
variable {w : World} {r : RunId} {e₀ : OrchestratorEngine} {s : JobId} {ids : List ChannelId}

theorem peering_ne (s : JobId) :
    "channel peer '" ++ s ++ "' failed (KillAll)" ≠ "heartbeat timeout" := by
  intro h
  have hhead := congrArg (fun t => t.toList.head?) h
  simp at hhead

theorem deals_killPeer (d : Daemon) (k : JobId) :
    Deals (Peering w ids) [k] d (killPeer w r s d k) := by
  have hact : Deals (Peering w ids) [k]
      ((d.stopWorker (workerName k)).removeManaged (workerName k)) (killPeer w r s d k) := by
    refine .act ⟨rfl, rfl, rfl, ?_, fun _ h => by cases h⟩ rfl
    show (if "channel peer '" ++ s ++ "' failed (KillAll)" = "heartbeat timeout" then some k
      else none) = none
    exact if_neg (peering_ne s)
  exact (untouched_dropWorker d (workerName k)).deals.trans hact

theorem deals_killPeers (l : List JobId) (d : Daemon) :
    Deals (Peering w ids) l d (l.foldl (killPeer w r s) d) := by
  have hloop := deals_foldl (A := Peering w ids) (f := killPeer w r s) (g := fun k => [k])
    (fun hx => hx.deals) l (fun d k _ _ => deals_killPeer d k) d (.refl d.engine)
  rwa [List.flatMap_singleton'] at hloop

/-- The peers of the job that the channel makes it kill. -/
def OrchestratorEngine.killsOf (e : OrchestratorEngine) (s : JobId) (chId : ChannelId) :
    List JobId := ((e.store.getChannel chId).map (Channel.kills s)).getD []

theorem SameTerms.killsOf {e : OrchestratorEngine} (h : SameTerms e₀ e) (s : JobId)
    (chId : ChannelId) : e.killsOf s chId = e₀.killsOf s chId := by
  have hterms := h chId
  have hkills : ∀ c : Channel, c.kills s =
      if c.terms.2 = .killAll then c.terms.1.filter (fun p => p != s) else [] := fun _ => rfl
  unfold OrchestratorEngine.killsOf
  cases hget : e.store.getChannel chId with
  | none =>
    rw [hget, Option.map_none, eq_comm, Option.map_eq_none_iff] at hterms
    rw [hterms]
  | some c =>
    obtain ⟨c₀, hget₀, hparts, hpolicy⟩ := h.before hget
    rw [hget₀, Option.map_some, Option.map_some, hkills, hkills]
    show (if c.onPeerFailure = _ then c.participants.filter _ else []) = _
    rw [hparts, hpolicy]
    rfl

/-- Killed are the peers of the failed job in a `kill_all` channel. -/
theorem handleChannelPeerFailure_kills (e : OrchestratorEngine) (chId : ChannelId) (s : JobId) :
    (e.handleChannelPeerFailure chId s).1 = .killParticipants (e.killsOf s chId) ∨
      e.killsOf s chId = [] ∧ ∀ jobIds,
        (e.handleChannelPeerFailure chId s).1 ≠ .killParticipants jobIds := by
  unfold handleChannelPeerFailure OrchestratorEngine.killsOf
  cases e.store.getChannel chId with
  | none =>
    right
    refine ⟨rfl, fun _ h => ?_⟩
    cases h
  | some c =>
    cases hpolicy : c.onPeerFailure with
    | killAll =>
      left
      dsimp only
      rw [hpolicy, Option.map_some, Option.getD_some, Channel.kills, if_pos hpolicy]
    | «continue» =>
      right
      dsimp only
      rw [hpolicy, Option.map_some, Option.getD_some, Channel.kills, if_neg (by rw [hpolicy]; nofun)]
      refine ⟨rfl, fun _ h => ?_⟩
      cases h

/-- In a channel that has kept its terms, the peers it once named are killed. -/
theorem deals_failChannel (d : Daemon) {chId : ChannelId} (hmem : chId ∈ ids)
    (h : SameTerms e₀ d.engine) :
    Deals (Peering w ids) (e₀.killsOf s chId) d (failChannel w r s d chId) := by
  have hcall : Deals (Peering w ids) [] d
      (d.act w (.call r (.handleChannelPeerFailure chId s))) := by
    refine .act ⟨rfl, rfl, rfl, rfl, fun k hk => ?_⟩ rfl
    cases hk
    exact hmem
  rw [← h.killsOf]
  unfold failChannel
  dsimp only
  refine hcall.trans (G := d.engine.killsOf s chId) ?_
  rcases handleChannelPeerFailure_kills d.engine chId s with haction | ⟨hnone, hother⟩
  · rw [haction]
    exact deals_killPeers (d.engine.killsOf s chId) _
  · rw [hnone]
    split
    · rename_i jobIds haction
      exact absurd haction (hother jobIds)
    · exact (untouched_foldl (untouched_notifyPeer _) _ _).deals
    · exact (Untouched.refl _).deals

theorem killsOf_channels {e : OrchestratorEngine} {l : List Channel}
    (h : ∀ c ∈ l, e.store.getChannel c.channelId = some c) :
    (l.map (·.channelId)).flatMap (e.killsOf s) = l.flatMap (Channel.kills s) := by
  rw [List.flatMap_map]
  refine List.flatMap_congr fun c hc => ?_
  rw [OrchestratorEngine.killsOf, h c hc]
  rfl

theorem getChannel_of_forJob {e : OrchestratorEngine} {c : Channel}
    (h : c ∈ e.store.channelsForJob w s) : e.store.getChannel c.channelId = some c :=
  (RunStore.mem_channelsForJob.mp h).1

/-- The peers in the channels that are active are killed with the job. -/
theorem deals_handleChannelPeerFailures (d : Daemon) :
    Deals (Peering w ((d.engine.store.channelsForJob w s).map (·.channelId)))
      ((d.engine.store.channelsForJob w s).flatMap (Channel.kills s)) d
      (handleChannelPeerFailures w r s d) := by
  rw [← killsOf_channels fun c hc => getChannel_of_forJob hc]
  exact deals_foldl (fun hx => hx.deals) _ (fun d chId hmem h => deals_failChannel d hmem h) d
    (.refl d.engine)

theorem deals_spawnReady (fuel : Nat) : ∀ d, Deals (Ending w) [] d (spawnReady w r fuel d) := by
  have hstart : ∀ d : Daemon, Deals (Ending w) [] d (d.act w (.call r .startNext)) :=
    fun d => .act ⟨rfl, rfl, rfl, rfl⟩ rfl
  induction fuel with
  | zero => exact fun d => (Untouched.refl d).deals
  | succ fuel ih =>
    intro d
    unfold spawnReady
    split
    · exact hstart d
    · exact (hstart d).trans ((untouched_spawnJobWorker w _ _).deals.trans (ih _))

theorem deals_finish (d : Daemon) : Deals (Ending w) [] d (finish w r d) := by
  have hact : Deals (Ending w) [] (spawnLoop w r d)
      ((spawnLoop w r d).act w (.call r .activateReadyChannels)) := .act ⟨rfl, rfl, rfl, rfl⟩ rfl
  have hscan : Deals (Ending w) [] (spawnLoop w r d) (activateChannels w r (spawnLoop w r d)) :=
    hact.trans (untouched_foldl untouched_sendInitial _ _).deals
  have hpersist : Deals (Ending w) [] (activateChannels w r (spawnLoop w r d)) (finish w r d) :=
    .act ⟨rfl, rfl, rfl, rfl⟩ rfl
  exact ((deals_spawnReady _ d).trans hscan).trans hpersist

end

/-! ## The turns of a tick -/

/-- The jobs that fail in the turn of the stale job. -/
def OrchestratorEngine.fallen (w : World) (e : OrchestratorEngine) (s : JobId) : List JobId :=
  (e.store.channelsForJob w s).flatMap (Channel.kills s) ++ [s]

/-- The jobs that fail in the turns of the stale jobs. -/
def Daemon.fallen (w : World) : List JobId → Daemon → List JobId
  | [], _ => []
  | s :: stale, d => d.engine.fallen w s ++ Daemon.fallen w stale (failStaleJob w d s)

/-- The actions `l` from `d` to `d'` fail the jobs of `F`, those of `S` alone for want of a
heartbeat, and close channels of `C` at most. -/
structure Turns (w : World) (F S : List JobId) (C : ChannelId → Prop) (d : Daemon)
    (l : List (World × Action)) (d' : Daemon) : Prop where
  calls : d'.calls = d.calls ++ l
  core : d'.core = run coreStep d.core l
  deals : ∀ x ∈ l, x.2.deals = true ∧ x.1 = w
  failed : failedIn l = F
  timedOut : ∀ k, (∃ x ∈ l, timedOutBy x = some k) ↔ k ∈ S
  closes : ∀ x ∈ l, ∀ k, closedBy x = some k → C k

section
variable {w : World} {r : RunId} {e₀ : OrchestratorEngine} {s : JobId}
  {F F₁ F₂ S S₁ S₂ : List JobId} {C : ChannelId → Prop} {d d₁ d₂ d₃ : Daemon}
  {l l₁ l₂ : List (World × Action)}

theorem Turns.trans (h₁ : Turns w F₁ S₁ C d₁ l₁ d₂) (h₂ : Turns w F₂ S₂ C d₂ l₂ d₃) :
    Turns w (F₁ ++ F₂) (S₁ ++ S₂) C d₁ (l₁ ++ l₂) d₃ where
  calls := by rw [h₂.calls, h₁.calls, List.append_assoc]
  core := by rw [h₂.core, h₁.core, run_append]
  deals := fun x hx => (List.mem_append.mp hx).elim (h₁.deals x) (h₂.deals x)
  failed := by rw [failedIn_append, h₁.failed, h₂.failed]
  timedOut := by
    intro k
    rw [List.mem_append, ← h₁.timedOut k, ← h₂.timedOut k]
    simp only [List.mem_append, or_and_right, exists_or]
  closes := fun x hx => (List.mem_append.mp hx).elim (h₁.closes x) (h₂.closes x)

theorem Turns.sameTerms (h : Turns w F S C d₁ l d₂) : SameTerms d₁.engine d₂.engine := by
  show SameTerms d₁.core.engine d₂.core.engine
  rw [h.core]
  exact sameTerms_run fun x hx => (h.deals x hx).1

/-- The turns leave other channels active. -/
theorem Turns.active (h : Turns w F S C d₁ l d₂) {k : ChannelId} {c : Channel} (hk : ¬ C k)
    (hget : d₁.engine.store.getChannel k = some c) (hactive : c.active = true) :
    ∃ c', d₂.engine.store.getChannel k = some c' ∧ c'.active = true := by
  show ∃ c', d₂.core.engine.store.getChannel k = some c' ∧ _
  rw [h.core]
  exact active_run (fun x hx => ⟨(h.deals x hx).1, fun hc => hk (h.closes x hx k hc)⟩) hget hactive

/-- Who is stale after the turns was stale before them. -/
theorem Turns.stale_before (h : Turns w F S C d₁ l d₂) {k : JobId} (hk : d₂.StillStale w k) :
    d₁.StillStale w k := by
  by_contra hnot
  have hafter : k ∉ (run coreStep d₁.core l).engine.staleJobs w 120000 := notStale_run h.deals hnot
  rw [← h.core] at hafter
  exact hafter hk

/-- A stale job that the turns do not fail is stale after them unless they have started it. -/
theorem Turns.stale_after (h : Turns w F S C d₁ l d₂) {k : JobId} (hk : d₁.StillStale w k)
    (hF : k ∉ F) : d₂.StillStale w k ↔ startsOf k d₁.core l = 0 := by
  have hiff : k ∈ (run coreStep d₁.core l).engine.staleJobs w 120000 ↔ startsOf k d₁.core l = 0 :=
    stillStale_run h.deals (h.failed ▸ hF) hk
  rw [← h.core] at hiff
  exact hiff

theorem Deals.turns {ids : List ChannelId} (h : Deals (Peering w ids) F d₁ d₂) :
    ∃ l, Turns w F [] (· ∈ ids) d₁ l d₂ ∧ ∀ k, startsOf k d₁.core l = 0 := by
  obtain ⟨l, hcalls, hcore, hl, hf⟩ := h
  refine ⟨l, ⟨hcalls, hcore, fun x hx => ⟨(hl x hx).deals, (hl x hx).world⟩, hf, fun k => ?_,
    fun x hx => (hl x hx).closes⟩, fun k => startsOf_eq_zero fun x hx => (hl x hx).starts⟩
  refine iff_of_false (fun ⟨x, hx, hk⟩ => ?_) List.not_mem_nil
  rw [(hl x hx).timedOut] at hk
  cases hk

theorem timedOutBy_of_failedBy {x : World × Action} (h : failedBy x = none) :
    timedOutBy x = none := by
  by_contra hne
  obtain ⟨k, hk⟩ := Option.ne_none_iff_exists'.mp hne
  have hmem := mem_failedIn_of_timedOut (List.mem_singleton.mpr rfl) hk
  rw [failedIn_eq_nil (l := [x]) fun y hy => List.mem_singleton.mp hy ▸ h] at hmem
  exact absurd hmem List.not_mem_nil

theorem Deals.ended (h : Deals (Ending w) F d₁ d₂) : ∃ l, Turns w [] [] C d₁ l d₂ := by
  obtain ⟨l, hcalls, hcore, hl, _⟩ := h
  refine ⟨l, hcalls, hcore, fun x hx => ⟨(hl x hx).deals, (hl x hx).world⟩,
    failedIn_eq_nil fun x hx => (hl x hx).failed, fun k => ?_, fun x hx k hk => ?_⟩
  · refine iff_of_false (fun ⟨x, hx, hk⟩ => ?_) List.not_mem_nil
    rw [timedOutBy_of_failedBy (hl x hx).failed] at hk
    cases hk
  · rw [(hl x hx).closes] at hk
    cases hk

/-- The timeout itself. -/
theorem turns_timeout (d : Daemon) : Turns w [s] [s] C d
    [(w, .call r (.markFailed s "heartbeat timeout"))]
    (d.act w (.call r (.markFailed s "heartbeat timeout"))) where
  calls := rfl
  core := rfl
  deals := fun x hx => List.mem_singleton.mp hx ▸ ⟨rfl, rfl⟩
  failed := rfl
  timedOut := by
    intro k
    rw [List.mem_singleton]
    refine ⟨fun ⟨x, hx, hk⟩ => ?_, fun hk => ⟨_, List.mem_singleton.mpr rfl, hk ▸ rfl⟩⟩
    rw [List.mem_singleton.mp hx] at hk
    have hk : some s = some k := hk
    exact (Option.some.inj hk).symm
  closes := by
    intro x hx k hk
    rw [List.mem_singleton.mp hx] at hk
    cases hk

/-- A single action starts no job before itself. -/
theorem sparesStarted_single {c : Core} (x : World × Action) : SparesStarted c [x] := by
  intro pre y post k hl _
  cases pre with
  | nil => rfl
  | cons z pre =>
    have hlength := congrArg List.length hl
    rw [List.length_append, List.length_cons, List.length_cons, List.length_cons] at hlength
    simp only [List.length_nil] at hlength
    omega

theorem Turns.spares_nil (h : Turns w F [] C d₁ l d₂) : SparesStarted d₁.core l := by
  refine sparesStarted_of_none fun x hx => ?_
  by_contra hne
  obtain ⟨k, hk⟩ := Option.ne_none_iff_exists'.mp hne
  exact absurd ((h.timedOut k).mp ⟨x, hx, hk⟩) List.not_mem_nil

/-- Turns after others spare the jobs that are started if they do so by themselves and the
earlier ones start none of the jobs they fail for a timeout. -/
theorem Turns.spares (h₁ : Turns w F₁ S₁ C d₁ l₁ d₂) (h₂ : Turns w F₂ S₂ C d₂ l₂ d₃) :
    SparesStarted d₁.core (l₁ ++ l₂) ↔ SparesStarted d₁.core l₁ ∧ SparesStarted d₂.core l₂ ∧
      ∀ k ∈ S₂, startsOf k d₁.core l₁ = 0 := by
  constructor
  · intro h
    obtain ⟨hs₁, hs₂, hlater⟩ := h.parts
    refine ⟨hs₁, h₁.core ▸ hs₂, fun k hk => ?_⟩
    obtain ⟨x, hx, htimed⟩ := (h₂.timedOut k).mpr hk
    exact hlater x hx k htimed
  · rintro ⟨hs₁, hs₂, hlater⟩
    exact hs₁.append (h₁.core ▸ hs₂) fun x hx k hk => hlater k ((h₂.timedOut k).mp ⟨x, hx, hk⟩)

/-- The turn of one stale job. -/
theorem turns_failStaleJob (d : Daemon) : ∃ l, Turns w (d.engine.fallen w s) [s]
    (· ∈ (d.engine.store.channelsForJob w s).map (·.channelId)) d l (failStaleJob w d s) ∧
      SparesStarted d.core l := by
  have hdropped := untouched_dropWorker d (workerName s)
  have hpeers := deals_handleChannelPeerFailures (w := w) (r := d.jobRunId s) (s := s)
    ((d.stopWorker (workerName s)).removeManaged (workerName s))
  rw [hdropped.engine] at hpeers
  obtain ⟨l₁, h₁, hstarts⟩ := (hdropped.deals.trans hpeers).turns
  generalize hd₂ : handleChannelPeerFailures w (d.jobRunId s) s
    ((d.stopWorker (workerName s)).removeManaged (workerName s)) = d₂ at h₁
  have h₂ := turns_timeout (w := w) (r := d.jobRunId s) (s := s)
    (C := (· ∈ (d.engine.store.channelsForJob w s).map (·.channelId))) d₂
  obtain ⟨l₃, h₃⟩ := (deals_finish (w := w) (r := d.jobRunId s)
    (d₂.act w (.call (d.jobRunId s) (.markFailed s "heartbeat timeout")))).ended
    (C := (· ∈ (d.engine.store.channelsForJob w s).map (·.channelId)))
  have hturn := (h₁.trans h₂).trans h₃
  rw [List.nil_append, List.nil_append, List.append_nil, List.append_nil] at hturn
  have hd : failStaleJob w d s = finish w (d.jobRunId s)
      (d₂.act w (.call (d.jobRunId s) (.markFailed s "heartbeat timeout"))) := by
    rw [← hd₂]
    rfl
  refine ⟨_, hd ▸ hturn, ?_⟩
  have hs₁₂ := (h₁.spares h₂).mpr ⟨h₁.spares_nil, sparesStarted_single _, fun k _ => hstarts k⟩
  exact ((h₁.trans h₂).spares h₃).mpr
    ⟨hs₁₂, h₃.spares_nil, fun k hk => absurd hk List.not_mem_nil⟩

theorem mem_fallen_self {e : OrchestratorEngine} : s ∈ e.fallen w s :=
  List.mem_append_right _ (List.mem_singleton.mpr rfl)

theorem mem_fallen_of_mem {stale : List JobId} (h : s ∈ stale) :
    ∀ d : Daemon, s ∈ d.fallen w stale := by
  induction stale with
  | nil => exact absurd h List.not_mem_nil
  | cons t stale ih =>
    intro d
    rcases List.mem_cons.mp h with rfl | h
    · exact List.mem_append_left _ mem_fallen_self
    · exact List.mem_append_right _ (ih h _)

/-- If each job is still stale when its turn comes, all of them are at the start. -/
theorem stale_of_meets (stale : List JobId) : ∀ d : Daemon,
    Meets (failStaleJob w) (StillStale w) d stale → ∀ s ∈ stale, d.StillStale w s := by
  induction stale with
  | nil => exact fun _ _ _ hs => absurd hs List.not_mem_nil
  | cons s stale ih =>
    intro d h t ht
    obtain ⟨l, hl, _⟩ := turns_failStaleJob (w := w) (s := s) d
    rcases List.mem_cons.mp ht with rfl | ht
    · exact h.1
    · exact hl.stale_before (ih _ h.2 t ht)

/-- The turns of several stale jobs. Where none fails twice, they spare the jobs that are
started exactly if each is still stale when its turn comes. -/
theorem turns_staleJobs (stale : List JobId) : ∀ d : Daemon,
    ∃ l, Turns w (d.fallen w stale) stale (fun _ => True) d l (stale.foldl (failStaleJob w) d) ∧
      ((d.fallen w stale).Nodup → (∀ s ∈ stale, d.StillStale w s) →
        (SparesStarted d.core l ↔ Meets (failStaleJob w) (StillStale w) d stale)) := by
  induction stale with
  | nil =>
    intro d
    obtain ⟨l, hl⟩ := ((Untouched.refl d).deals (A := Ending w)).ended (C := fun _ => True)
    exact ⟨l, hl, fun _ _ => iff_of_true hl.spares_nil True.intro⟩
  | cons s stale ih =>
    intro d
    obtain ⟨l₁, h₁, hs₁⟩ := turns_failStaleJob (w := w) (s := s) d
    obtain ⟨l₂, h₂, hspares⟩ := ih (failStaleJob w d s)
    have h₁' : Turns w (d.engine.fallen w s) [s] (fun _ => True) d l₁ (failStaleJob w d s) :=
      { h₁ with closes := fun _ _ _ _ => True.intro }
    refine ⟨l₁ ++ l₂, h₁'.trans h₂, fun hnodup hstale => ?_⟩
    obtain ⟨_, hnodup, hdisjoint⟩ := List.nodup_append.mp hnodup
    -- the jobs whose turn is still to come are not failed by this one
    have hstill : ∀ k ∈ stale,
        (failStaleJob w d s).StillStale w k ↔ startsOf k d.core l₁ = 0 := by
      intro k hk
      refine h₁.stale_after (hstale k (List.mem_cons_of_mem s hk)) fun hfallen => ?_
      exact hdisjoint k hfallen k (mem_fallen_of_mem hk _) rfl
    rw [h₁'.spares h₂]
    constructor
    · rintro ⟨_, hs₂, hlater⟩
      have hstale₂ := fun k hk => (hstill k hk).mpr (hlater k hk)
      exact ⟨hstale s List.mem_cons_self, (hspares hnodup hstale₂).mp hs₂⟩
    · rintro ⟨_, hmeets⟩
      have hstale₂ := stale_of_meets stale _ hmeets
      exact ⟨hs₁, (hspares hnodup hstale₂).mpr hmeets,
        fun k hk => (hstill k hk).mp (hstale₂ k hk)⟩

/-! ## The jobs at risk -/

theorem subperm_flatMap {α β : Type} {l₁ l₂ : List α} (h : l₁.Subperm l₂) (f : α → List β) :
    (l₁.flatMap f).Subperm (l₂.flatMap f) := by
  obtain ⟨l, hperm, hsub⟩ := h
  exact ⟨l.flatMap f, hperm.flatMap_right f, hsub.flatMap f⟩

theorem nodup_of_subperm {α : Type} {l₁ l₂ : List α} (h : l₁.Subperm l₂) (hl : l₂.Nodup) :
    l₁.Nodup := by
  obtain ⟨l, hperm, hsub⟩ := h
  exact hperm.nodup_iff.mp (hsub.nodup hl)

theorem channelIds_nodup {s : RunStore} {p : Channel → Bool} :
    (((s.channels.valuesIn (w.order .channels)).filter p).map (·.channelId)).Nodup :=
  (List.filter_sublist.map _).nodup (s.channels.valuesIn_nodup_keys _)

theorem getChannel_of_filter {p : Channel → Bool} {c : Channel}
    (h : c ∈ (e₀.store.allChannelsForJob w s).filter p) :
    e₀.store.getChannel c.channelId = some c :=
  (RunStore.mem_allChannelsForJob.mp (List.mem_filter.mp h).1).1

theorem isActive_iff {e : OrchestratorEngine} {k : ChannelId} :
    e.isActive k = true ↔ ∃ c, e.store.getChannel k = some c ∧ c.active = true := by
  rw [OrchestratorEngine.isActive, Option.any_eq_true]

/-- Who falls with a job is at risk. -/
theorem fallen_subperm {e : OrchestratorEngine} (h : SameTerms e₀ e) :
    (e.fallen w s).Subperm (e₀.atRisk w e s) := by
  refine List.Subperm.append ?_ (.refl [s])
  rw [← killsOf_channels fun c hc => getChannel_of_forJob hc,
    ← killsOf_channels fun c hc => getChannel_of_filter hc, funext fun k => h.killsOf s k]
  refine subperm_flatMap (List.Nodup.subperm channelIds_nodup fun k hk => ?_) _
  obtain ⟨c, hc, rfl⟩ := List.mem_map.mp hk
  obtain ⟨hget, hactive, hpart⟩ := RunStore.mem_channelsForJob.mp hc
  obtain ⟨c₀, hget₀, hparts, _⟩ := h.before hget
  have hid := RunStore.channelId_of_getChannel hget₀
  refine List.mem_map.mpr ⟨c₀, List.mem_filter.mpr ⟨?_, ?_⟩, hid⟩
  · exact RunStore.mem_allChannelsForJob.mpr ⟨hid.symm ▸ hget₀, hparts ▸ hpart⟩
  · rw [hid, isActive_iff.mpr ⟨c, hget, hactive⟩, Bool.or_true]

theorem fallen_subperm_all (stale : List JobId) : ∀ d : Daemon, SameTerms e₀ d.engine →
    (d.fallen w stale).Subperm (d.atRisk w e₀ stale) := by
  induction stale with
  | nil => exact fun _ _ => .refl []
  | cons s stale ih =>
    intro d h
    obtain ⟨l, hl, _⟩ := turns_failStaleJob (w := w) (s := s) d
    exact (fallen_subperm h).append (ih _ (h.trans hl.sameTerms))

/-- The channels of the job that were active and in which a failure kills are active still. -/
def OrchestratorEngine.Poised (w : World) (e₀ e : OrchestratorEngine) (s : JobId) : Prop :=
  ∀ c ∈ e₀.store.allChannelsForJob w s, c.active = true → c.onPeerFailure = .killAll →
    e.isActive c.channelId = true

/-- Where these channels are active still, whoever is at risk with a job falls with it. -/
theorem atRisk_subperm {e : OrchestratorEngine} (h : SameTerms e₀ e) (hp : e₀.Poised w e s) :
    (e₀.atRisk w e s).Subperm (e.fallen w s) := by
  refine List.Subperm.append ?_ (.refl [s])
  -- the channels with another policy do not count
  have hkilling : ∀ l : List Channel, l.flatMap (Channel.kills s) =
      (l.filter (fun c => c.onPeerFailure = .killAll)).flatMap (Channel.kills s) := by
    intro l
    induction l with
    | nil => rfl
    | cons c l ih =>
      rw [List.flatMap_cons, ih, List.filter_cons]
      split
      · rw [List.flatMap_cons]
      · rename_i hpolicy
        rw [Channel.kills, if_neg (by simpa using hpolicy), List.nil_append]
  have hget : ∀ c ∈ ((e₀.store.allChannelsForJob w s).filter
      (fun c => c.active || e.isActive c.channelId)).filter
      (fun c => c.onPeerFailure = .killAll), e₀.store.getChannel c.channelId = some c :=
    fun c hc => getChannel_of_filter (List.mem_filter.mp hc).1
  rw [hkilling, ← killsOf_channels hget,
    ← killsOf_channels fun c hc => getChannel_of_forJob hc, funext fun k => h.killsOf s k]
  refine subperm_flatMap (List.Nodup.subperm ?_ fun k hk => ?_) _
  · exact ((List.filter_sublist.trans List.filter_sublist).map _).nodup channelIds_nodup
  · obtain ⟨c₀, hc₀, rfl⟩ := List.mem_map.mp hk
    obtain ⟨hcounted, hpolicy⟩ := List.mem_filter.mp hc₀
    obtain ⟨hall, hcounted⟩ := List.mem_filter.mp hcounted
    obtain ⟨hget₀, hpart⟩ := RunStore.mem_allChannelsForJob.mp hall
    have hnow : e.isActive c₀.channelId = true :=
      ((Bool.or_eq_true _ _).mp hcounted).elim (fun hwas => hp c₀ hall hwas (by simpa using hpolicy))
        id
    obtain ⟨c, hc, hactive⟩ := isActive_iff.mp hnow
    obtain ⟨c₁, hc₁, hparts, _⟩ := h.before hc
    rw [hget₀] at hc₁
    cases hc₁
    have hid := RunStore.channelId_of_getChannel hc
    refine List.mem_map.mpr ⟨c, RunStore.mem_channelsForJob.mpr ⟨?_, hactive, ?_⟩, hid⟩
    · exact hid.symm ▸ hc
    · exact hparts.symm ▸ hpart

/-- If nobody falls twice, the channels of later stale jobs are still active when their turn
comes: a channel that is closed before has killed them already. -/
theorem atRisk_subperm_all (stale : List JobId) : ∀ d : Daemon, SameTerms e₀ d.engine →
    (∀ s ∈ stale, e₀.Poised w d.engine s) → (d.fallen w stale).Nodup →
      (d.atRisk w e₀ stale).Subperm (d.fallen w stale) := by
  induction stale with
  | nil => exact fun _ _ _ _ => .refl []
  | cons s stale ih =>
    intro d hterms hpoised hnodup
    obtain ⟨l, hl, _⟩ := turns_failStaleJob (w := w) (s := s) d
    obtain ⟨_, hlater, hdisjoint⟩ := List.nodup_append.mp hnodup
    have hrisk := atRisk_subperm hterms (hpoised s List.mem_cons_self)
    refine hrisk.append (ih _ (hterms.trans hl.sameTerms) ?_ hlater)
    intro t ht c hc hwas hpolicy
    obtain ⟨c', hget, hactive⟩ :=
      isActive_iff.mp (hpoised t (List.mem_cons_of_mem s ht) c hc hwas hpolicy)
    obtain ⟨hget₀, hpart⟩ := RunStore.mem_allChannelsForJob.mp hc
    refine isActive_iff.mpr (hl.active (fun hmem => ?_) hget hactive)
    -- the turn would have closed the channel, and killed the later job with it
    refine hdisjoint t ?_ t (mem_fallen_of_mem ht _) rfl
    by_cases hts : t = s
    · rw [hts]
      exact mem_fallen_self
    · refine hrisk.subset (List.mem_append_left _ (List.mem_flatMap.mpr ⟨c, ?_, ?_⟩))
      · refine List.mem_filter.mpr ⟨RunStore.mem_allChannelsForJob.mpr ⟨hget₀, ?_⟩, ?_⟩
        · obtain ⟨c₁, hc₁, hid⟩ := List.mem_map.mp hmem
          obtain ⟨hget₁, _, hpart₁⟩ := RunStore.mem_channelsForJob.mp hc₁
          obtain ⟨c₂, hc₂, hparts, _⟩ := hterms.before hget₁
          rw [hid, hget₀] at hc₂
          cases hc₂
          exact hparts ▸ hpart₁
        · rw [hwas, Bool.true_or]
      · rw [Channel.kills, if_pos hpolicy]
        exact List.mem_filter.mpr ⟨hpart, by simpa using hts⟩

end

/-! ## Ticks -/

/-- The actions before and after the turns neither start nor fail a job. -/
def Aloof (x : World × Action) : Prop := x.2.starts = false ∧ failedBy x = none

section
variable {w : World} {d d' : Daemon}

theorem aloof_foldl {α : Type} {f : Daemon → α → Daemon} (hf : ∀ d a, Deals Aloof [] d (f d a))
    (l : List α) : ∀ d, Deals Aloof [] d (l.foldl f d) :=
  foldl_relates (fun d => (Untouched.refl d).deals) (fun h₁ h₂ => h₁.trans h₂) l
    (fun a _ d => hf d a)

theorem aloof_refreshHeartbeats (d : Daemon) : Deals Aloof [] d (refreshHeartbeats w d) := by
  refine aloof_foldl (fun d jobId => ?_) _ d
  split
  · exact .act ⟨rfl, rfl⟩ rfl
  · exact (Untouched.refl d).deals

theorem aloof_cleanup (d : Daemon) : Deals Aloof [] d (cleanup w d) := by
  have hexpire : ∀ (d : Daemon) r, Deals Aloof [] d (expireRun w d r) := by
    intro d r
    have hact : ∀ d : Daemon, Deals Aloof [] d (d.act w (.expire r)) :=
      fun d => .act ⟨rfl, rfl⟩ rfl
    exact (untouched_foldl (fun d path => untouched_send d (.removeFile path)) _ d).deals.trans
      (hact _)
  unfold cleanup
  split
  · have hnow : Untouched d { d with lastCleanup := w.instant } := ⟨rfl, rfl⟩
    exact hnow.deals.trans (aloof_foldl hexpire _ _)
  · exact (Untouched.refl d).deals

/-- A tick takes the turns of the stale jobs, and fails no job before and after them. -/
theorem tick_turns (halive : d.alive = true) :
    let stale := (d.beforeStale w).engine.staleJobs w 120000
    ∃ before turns after, (d.step (w, .tick)).calls = before ++ (turns ++ after) ∧
      (d.beforeStale w).calls = before ∧ (d.beforeStale w).core = run coreStep d.core before ∧
      (∀ x ∈ before, Aloof x) ∧ (∀ x ∈ after, Aloof x) ∧
      Turns w ((d.beforeStale w).fallen w stale) stale (fun _ => True) (d.beforeStale w) turns
        (handleStaleJobs w (d.beforeStale w)) ∧
      (((d.beforeStale w).fallen w stale).Nodup →
        (SparesStarted (d.beforeStale w).core turns ↔
          Meets (failStaleJob w) (StillStale w) (d.beforeStale w) stale)) := by
  intro stale
  have hreload : Untouched d.fresh (reloadConfig w d.fresh) := untouched_reloadConfig w d.fresh
  obtain ⟨before, hcalls₁, hcore₁, hbefore, _⟩ :=
    hreload.deals.trans (aloof_refreshHeartbeats (reloadConfig w d.fresh))
  have hfirst : (d.beforeStale w).calls = before := by
    show (refreshHeartbeats w (reloadConfig w d.fresh)).calls = before
    rw [hcalls₁]
    exact List.nil_append before
  obtain ⟨turns, hturns, hspares⟩ := turns_staleJobs (w := w) stale (d.beforeStale w)
  obtain ⟨after, hcalls₃, hcore₃, hafter, _⟩ := aloof_cleanup (w := w)
    (handleStaleJobs w (d.beforeStale w))
  refine ⟨before, turns, after, ?_, hfirst, hcore₁, hbefore, hafter, hturns,
    fun hnodup => hspares hnodup fun _ hs => hs⟩
  rw [step_of_alive rfl halive]
  show (restartAgents w (cleanup w (handleStaleJobs w (d.beforeStale w)))).calls = _
  rw [(untouched_restartAgents w _).2, hcalls₃]
  show (List.foldl (failStaleJob w) (d.beforeStale w) stale).calls ++ after = _
  rw [hturns.calls, hfirst, List.append_assoc]

/-- Only stale jobs are failed for want of a heartbeat. -/
theorem tick_timedOut (halive : d.alive = true) {x : World × Action}
    (hx : x ∈ (d.step (w, .tick)).calls) {k : JobId} (hk : timedOutBy x = some k) :
    k ∈ (d.beforeStale w).engine.staleJobs w 120000 := by
  obtain ⟨before, turns, after, hcalls, _, _, hbefore, hafter, hturns, _⟩ :=
    tick_turns (w := w) halive
  have hnone : ∀ l : List (World × Action), (∀ y ∈ l, Aloof y) → x ∉ l := by
    intro l hl hmem
    rw [timedOutBy_of_failedBy (hl x hmem).2] at hk
    cases hk
  rw [hcalls] at hx
  rcases List.mem_append.mp hx with hx | hx
  · exact absurd hx (hnone before hbefore)
  · rcases List.mem_append.mp hx with hx | hx
    · exact (hturns.timedOut k).mp ⟨x, hx, hk⟩
    · exact absurd hx (hnone after hafter)

/-- The jobs that fail in a tick are those that fall in the turns of the stale ones, and
the tick spares the jobs it starts where the turns do. -/
theorem tick_calls (halive : d.alive = true) :
    let stale := (d.beforeStale w).engine.staleJobs w 120000
    failedIn (d.step (w, .tick)).calls = (d.beforeStale w).fallen w stale ∧
      (((d.beforeStale w).fallen w stale).Nodup →
        (SparesStarted d.core (d.step (w, .tick)).calls ↔
          Meets (failStaleJob w) (StillStale w) (d.beforeStale w) stale)) := by
  intro stale
  obtain ⟨before, turns, after, hcalls, _, hcore, hbefore, hafter, hturns, hspares⟩ :=
    tick_turns (w := w) halive
  have hnone : ∀ x, Aloof x → timedOutBy x = none := fun x hx => timedOutBy_of_failedBy hx.2
  rw [hcalls]
  refine ⟨?_, fun hnodup => ?_⟩
  · rw [failedIn_append, failedIn_append, failedIn_eq_nil fun x hx => (hbefore x hx).2,
      failedIn_eq_nil fun x hx => (hafter x hx).2, List.nil_append, List.append_nil]
    exact hturns.failed
  · rw [← hspares hnodup, hcore]
    refine ⟨fun h => h.parts.2.1.parts.1, fun h => ?_⟩
    refine SparesStarted.append (sparesStarted_of_none fun x hx => hnone x (hbefore x hx))
      (h.append (sparesStarted_of_none fun x hx => hnone x (hafter x hx)) fun x hx k hk => ?_)
      fun x hx k hk => startsOf_eq_zero fun y hy => (hbefore y hy).1
    rw [hnone x (hafter x hx)] at hk
    cases hk

/-- A tick costs no job more than one attempt exactly where its stale jobs put none at risk
twice and each of them is still stale when its turn comes. -/
theorem costsOneAttempt_iff (halive : d.alive = true) :
    CostsOneAttempt d.core (d.step (w, .tick)).calls ↔ d.RisksOnce w := by
  obtain ⟨hfailed, hspares⟩ := tick_calls (w := w) halive
  constructor
  · intro h
    have hnodup := h.once
    rw [hfailed] at hnodup
    have hpoised : ∀ s ∈ (d.beforeStale w).engine.staleJobs w 120000,
        (d.beforeStale w).engine.Poised w (d.beforeStale w).engine s :=
      fun s _ c hc hactive _ =>
        isActive_iff.mpr ⟨c, (RunStore.mem_allChannelsForJob.mp hc).1, hactive⟩
    exact ⟨nodup_of_subperm (atRisk_subperm_all _ _ (.refl _) hpoised hnodup) hnodup,
      (hspares hnodup).mp h.fresh⟩
  · intro h
    have hnodup := nodup_of_subperm (fallen_subperm_all _ (d.beforeStale w) (.refl _)) h.1
    exact ⟨hfailed ▸ hnodup, (hspares hnodup).mpr h.2⟩

end

/-- If the input is a tick of a process that is running, `P` holds of it. -/
def AtTicks (P : World → Daemon → Prop) (d : Daemon) (x : World × Input) : Prop :=
  match x.2 with
  | .tick => d.alive = true → P x.1 d
  | _ => True

instance {P : World → Daemon → Prop} [∀ w d, Decidable (P w d)] (d : Daemon)
    (x : World × Input) : Decidable (AtTicks P d x) :=
  x.2.casesOn (motive := fun i => Decidable (AtTicks P d (x.1, i))) (fun _ => instDecidableTrue)
    (fun _ => instDecidableTrue) (fun _ => instDecidableTrue) instDecidableForall
    instDecidableTrue instDecidableTrue

/-- The tick costs each job one attempt at most. -/
def Daemon.TicksOnce (w : World) (d : Daemon) : Prop :=
  CostsOneAttempt d.core (d.step (w, .tick)).calls

/-- In a run each tick costs a job one attempt at most exactly if the stale jobs of each tick
put no job at risk twice and are still stale when their turn comes. -/
theorem ticks_costOneAttempt (d : Daemon) (is : List (World × Input)) :
    Meets Daemon.step (AtTicks TicksOnce) d is ↔ Meets Daemon.step (AtTicks RisksOnce) d is := by
  have hticks : ∀ (d : Daemon) (x : World × Input),
      AtTicks TicksOnce d x ↔ AtTicks RisksOnce d x := by
    intro d x
    obtain ⟨w, i⟩ := x
    cases i with
    | tick => exact forall_congr' fun halive => costsOneAttempt_iff halive
    | _ => exact Iff.rfl
  exact ⟨Meets.mono fun d x => (hticks d x).mp, Meets.mono fun d x => (hticks d x).mpr⟩

/-- Two agents talk, and one of them is not heard of for two minutes. -/
def dialogLapsed : List (World × Input) :=
  [(plannerWorld dialogPlan, .start), (plannerWorld dialogPlan, .command (.submitRun "task")),
    (plannerWorld dialogPlan, artifactEvent "job_1_1" "plan"),
    (plannerWorld dialogPlan, completedEvent "job_1_1" ["plan"]),
    ({ plannerWorld dialogPlan with instant := 120000 }, .event (heartbeat "job_1_3")),
    ({ plannerWorld dialogPlan with instant := 120001 }, .tick)]

theorem ticks_costOneAttempt_dialogLapsed :
    Meets Daemon.step (AtTicks RisksOnce) (Daemon.off true none false) dialogLapsed ∧
      Meets Daemon.step (AtTicks TicksOnce) (Daemon.off true none false) dialogLapsed := by
  have honce : Meets Daemon.step (AtTicks RisksOnce) (Daemon.off true none false) dialogLapsed := by
    decide
  exact ⟨honce, (ticks_costOneAttempt (Daemon.off true none false) dialogLapsed).mpr honce⟩

/-- Neither of the two is heard of. -/
def dialogSilent : List (World × Input) :=
  [(plannerWorld dialogPlan, .start), (plannerWorld dialogPlan, .command (.submitRun "task")),
    (plannerWorld dialogPlan, artifactEvent "job_1_1" "plan"),
    (plannerWorld dialogPlan, completedEvent "job_1_1" ["plan"])]

/-- What `SparesStarted` says of the action at a position. -/
theorem SparesStarted.at {c : Core} {l : List (World × Action)} (h : SparesStarted c l) {n : Nat}
    (hn : n < l.length) {k : JobId} (hk : timedOutBy l[n] = some k) :
    startsOf k c (l.take n) = 0 := by
  refine h (l.take n) l[n] (l.drop (n + 1)) k ?_ hk
  rw [← List.drop_eq_getElem_cons hn, List.take_append_drop]

/-- The tick fails the first agent and kills the second, starts both again, and fails the
second, whose channel is closed and whose heartbeat is fresh, once more. -/
theorem not_ticksOnce_dialogSilent :
    let d := run Daemon.step (Daemon.off true none false) dialogSilent
    let w := { plannerWorld dialogPlan with instant := 120001 }
    Meets Daemon.step Clocked (Daemon.off true none false) (dialogSilent ++ [(w, .tick)]) ∧
      d.alive = true ∧ ¬ (failedIn (d.step (w, .tick)).calls).Nodup ∧
      ¬ SparesStarted d.core (d.step (w, .tick)).calls ∧ ¬ d.TicksOnce w := by
  intro d w
  have htwice : ¬ (failedIn (d.step (w, .tick)).calls).Nodup := by decide
  refine ⟨by decide, by decide, htwice, fun h => ?_, fun h => htwice h.once⟩
  have hstarts := h.at (n := 8) (k := "job_1_2") (by decide) (by decide)
  revert hstarts
  decide

end ZeptoPM
