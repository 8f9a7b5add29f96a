import ZeptoPM.Traversal
import ZeptoPM.Reload
import ZeptoPM.Capsule
import ZeptoPM.Passing

/- The config in force. A config is validated when the process starts; a tick puts
   another one in its place if the hash of some of its fields has changed, and the
   limits of capsules are not among these fields. `inForce_iff` tells the runs in which
   the config that is held stays valid and gives jobs the limits of the file. -/
namespace ZeptoPM
open Daemon

/-! ## Validation -/

/-- The errors of the agent at the index. -/
def agentErrors (config : Config) (i : Nat) (agent : AgentConfig) : List String :=
  (if (Text.trim agent.name.toList).isEmpty then
    ["agents[" ++ toString i ++ "]: name must not be empty"] else []) ++
  (if (Text.trim agent.provider.toList).isEmpty then
    ["agents[" ++ toString i ++ "] '" ++ agent.name ++ "': provider must not be empty"]
    else []) ++
  (if agent.maxIterations = some 0 then
    ["agents[" ++ toString i ++ "] '" ++ agent.name ++ "': max_iterations must be > 0"]
    else []) ++
  (if agent.provider ∉ config.providers ∧ config.providers ≠ [] then
    ["agents[" ++ toString i ++ "] '" ++ agent.name ++ "': provider '" ++ agent.provider ++
      "' not defined in [providers.*]"]
    else [])

def isolationErrors (config : Config) : List String :=
  if config.daemon.isolation ∈ ["none", "capsule", "process", "namespace"] then []
  else
    ["daemon.isolation: unknown value '" ++ config.daemon.isolation ++
      "' (expected \"none\", \"process\", \"namespace\", or \"capsule\")"]

/-- Validate the config. Returns a list of errors. -/
def validateConfig (config : Config) : List String :=
  config.agents.zipIdx.flatMap (fun e => agentErrors config e.2 e.1) ++
    duplicateErrors "agent name" [] config.agentNames ++ isolationErrors config

/-- What a config has to meet. -/
structure Config.Valid (config : Config) : Prop where
  agents : ∀ agent ∈ config.agents,
    Text.trim agent.name.toList ≠ [] ∧ Text.trim agent.provider.toList ≠ [] ∧
      agent.maxIterations ≠ some 0 ∧
      (agent.provider ∈ config.providers ∨ config.providers = [])
  names : config.agentNames.Nodup
  isolation : config.daemon.isolation ∈ ["none", "capsule", "process", "namespace"]

theorem agentErrors_eq_nil {config : Config} {i : Nat} {agent : AgentConfig} :
    agentErrors config i agent = [] ↔
      Text.trim agent.name.toList ≠ [] ∧ Text.trim agent.provider.toList ≠ [] ∧
        agent.maxIterations ≠ some 0 ∧
        (agent.provider ∈ config.providers ∨ config.providers = []) := by
  simp [agentErrors, List.append_eq_nil_iff, Decidable.or_iff_not_imp_left]

theorem validateConfig_eq_nil {config : Config} : validateConfig config = [] ↔ config.Valid := by
  have hagents : config.agents.zipIdx.flatMap (fun e => agentErrors config e.2 e.1) = [] ↔
      ∀ agent ∈ config.agents, agentErrors config 0 agent = [] := by
    simp only [List.flatMap_eq_nil_iff, agentErrors_eq_nil]
    refine ⟨?_, ?_⟩
    · intro h agent hagent
      obtain ⟨i, hi⟩ := List.mem_iff_getElem?.mp hagent
      exact h (agent, i) (List.mem_zipIdx_iff_getElem?.mpr hi)
    · intro h e he
      exact h e.1 (List.mem_iff_getElem?.mpr ⟨e.2, List.mem_zipIdx_iff_getElem?.mp he⟩)
  have hiso : isolationErrors config = [] ↔
      config.daemon.isolation ∈ ["none", "capsule", "process", "namespace"] := by
    unfold isolationErrors
    split <;> simp_all
  unfold validateConfig
  rw [List.append_eq_nil_iff, List.append_eq_nil_iff, hagents, hiso, duplicateErrors_eq_nil]
  simp only [agentErrors_eq_nil]
  refine ⟨?_, ?_⟩
  · intro h
    exact ⟨h.1.1, h.1.2.1, h.2⟩
  · intro h
    exact ⟨⟨h.agents, h.names, by simp⟩, h.isolation⟩

/-! ## Capsules -/

inductive Isolation where
  | process | namespaced
  deriving DecidableEq, Repr

inductive SecurityProfile where
  | dev | standard | hardened
  deriving DecidableEq, Repr

structure WorkspaceConfig where
  hostPath : Option PathBuf
  guestPath : PathBuf
  sizeMib : Option Nat
  deriving DecidableEq, Repr

structure ResourceLimits where
  timeoutSec : Nat
  memoryMib : Option Nat
  cpuQuota : Option Nat
  maxPids : Option Nat
  deriving DecidableEq, Repr

structure CapsuleSpec where
  isolation : Isolation
  workspace : WorkspaceConfig
  limits : ResourceLimits
  initBinary : Option PathBuf
  security : SecurityProfile
  cgroupRequired : Option Bool
  deriving DecidableEq, Repr

/-- Default wall-clock timeout for capsule jobs. -/
def defaultCapsuleTimeoutSec : Nat := 300

def namespaceInitBinary (config : Config) : Option PathBuf :=
  if config.daemon.isolation ≠ "namespace" then none else config.daemon.workerBinary

/-- Build a `CapsuleSpec` from ZeptoPM config. -/
def capsuleSpecFromConfig (config : Config) (job : Job) : CapsuleSpec :=
  let agent := firstNamed config.agents job.profileId
  { isolation :=
      match config.daemon.isolation with
      | "namespace" => .namespaced
      | _ => .process
    workspace :=
      { hostPath := some job.workspaceDir
        guestPath := guestWorkspacePath config job
        sizeMib := none }
    limits :=
      { timeoutSec := (agent.bind (·.timeoutSec)).getD defaultCapsuleTimeoutSec
        memoryMib := agent.bind (·.memoryMib)
        cpuQuota := none
        maxPids := agent.bind (·.maxPids) }
    initBinary := namespaceInitBinary config
    security :=
      match config.daemon.security with
      | some "dev" => .dev
      | some "hardened" => .hardened
      | _ => .standard
    cgroupRequired := config.daemon.cgroupRequired }

/-- The two configs give every job the same limits. -/
def Config.SameLimits (config config' : Config) : Prop :=
  ∀ job, (capsuleSpecFromConfig config job).limits = (capsuleSpecFromConfig config' job).limits

/-! ## The process and the file -/

/-- What a running daemon is served, and the files around it then. -/
structure Served where
  world : World
  input : Input
  running : input ≠ .start

def Daemon.serve (d : Daemon) (s : Served) : Daemon := d.step (s.world, s.input)

/-- The process starts on a config file: it exits unless the file loads and validates. -/
def Daemon.startUp (d : Daemon) (w : World) (file : Option Config) : Daemon :=
  d.step ({ w with startConfig := file.filter (fun config => (validateConfig config).isEmpty) },
    .start)

/-- What a poll tick reads. -/
def Served.file (s : Served) : Option Config :=
  match s.input with
  | .tick => s.world.loadConfig
  | _ => none

/-- The file at the last tick at which it loaded. -/
def latestFile (served : List Served) : Option Config := (served.filterMap Served.file).getLast?

/-- The config that is held is valid, and its limits are those of the file. -/
structure InForce (served : List Served) (d : Daemon) : Prop where
  valid : validateConfig d.currentConfig = []
  limits : ∀ config ∈ latestFile served, d.currentConfig.SameLimits config

/-- A file that loads at a tick is valid if its hash is a new one, and gives the limits
that are in force if it is not. -/
def Followed (d : Daemon) (s : Served) : Prop :=
  d.alive = true → ∀ config ∈ s.file,
    if s.world.configHash config.hashed = d.lastConfigHash then d.currentConfig.SameLimits config
    else validateConfig config = []

/-! ## What keeps the config -/

/-- The two daemons hold the same config. -/
structure SameConfig (d d' : Daemon) : Prop where
  currentConfig : d'.currentConfig = d.currentConfig
  lastConfigHash : d'.lastConfigHash = d.lastConfigHash
  alive : d'.alive = d.alive

section
variable {w : World} {d d' : Daemon} {s : Served} {served : List Served} {config : Config}

theorem SameConfig.trans {d₁ d₂ d₃ : Daemon} (h : SameConfig d₁ d₂) (h' : SameConfig d₂ d₃) :
    SameConfig d₁ d₃ :=
  ⟨h'.currentConfig.trans h.currentConfig, h'.lastConfigHash.trans h.lastConfigHash,
    h'.alive.trans h.alive⟩

theorem sameConfig_foldl {α : Type} {g : Daemon → α → Daemon} (hg : ∀ d a, SameConfig d (g d a))
    (l : List α) (d : Daemon) : SameConfig d (l.foldl g d) :=
  foldl_relates (fun _ => ⟨rfl, rfl, rfl⟩) .trans l (fun a _ d => hg d a) d

theorem sameConfig_removeManaged (d : Daemon) (name : String) :
    SameConfig d (d.removeManaged name) := ⟨rfl, rfl, rfl⟩

theorem sameConfig_startConfigured (d : Daemon) (name done : String) :
    SameConfig d (d.startConfigured name done) := by
  unfold startConfigured
  split <;> exact ⟨rfl, rfl, rfl⟩

theorem sameConfig_stopWorker (d : Daemon) (worker : String) :
    SameConfig d (d.stopWorker worker) := by
  unfold stopWorker
  split <;> exact ⟨rfl, rfl, rfl⟩

theorem sameConfig_restartDue (d : Daemon) (name : String) : SameConfig d (d.restartDue name) := by
  unfold restartDue
  split <;> exact ⟨rfl, rfl, rfl⟩

theorem sameConfig_applyConfigChanges (w : World) (d : Daemon) (config : Config) :
    SameConfig d (d.applyConfigChanges w config) := by
  rw [applyConfigChanges_eq]
  refine (sameConfig_foldl ?_ (d.toRemove w config) d).trans (sameConfig_foldl ?_ _ _)
  · intro d name
    exact (sameConfig_stopWorker d name).trans (sameConfig_removeManaged _ name)
  · intro d agent
    unfold addManaged
    split <;> exact ⟨rfl, rfl, rfl⟩

theorem constituent_sameConfig (w : World) : Constituent w SameConfig where
  refl := fun _ => ⟨rfl, rfl, rfl⟩
  trans := .trans
  act := fun _ _ _ => ⟨rfl, rfl, rfl⟩
  send := fun _ _ => ⟨rfl, rfl, rfl⟩
  removeWorker := fun _ _ => ⟨rfl, rfl, rfl⟩
  spawnJobWorker := by
    intro d job
    unfold spawnJobWorker
    dsimp only
    split
    · exact ⟨rfl, rfl, rfl⟩
    · split
      · exact ⟨rfl, rfl, rfl⟩
      · split <;> exact ⟨rfl, rfl, rfl⟩
  startAgent := by
    intro d name
    unfold startAgent
    split
    · split
      · exact ⟨rfl, rfl, rfl⟩
      · exact (sameConfig_removeManaged d name).trans
          (sameConfig_startConfigured _ name "started")
    · exact sameConfig_startConfigured d name _
  restartAgent := fun d name =>
    ((sameConfig_stopWorker d name).trans (sameConfig_removeManaged _ name)).trans
      (sameConfig_startConfigured _ name "restarted")
  cleaned := fun _ _ => ⟨rfl, rfl, rfl⟩
  restartAgents := fun d => sameConfig_foldl sameConfig_restartDue _ d

theorem sameConfig_agentUpdate (w : World) (d : Daemon) (update : AgentStateUpdate) :
    SameConfig d (d.agentUpdate w update) := by
  unfold agentUpdate
  split <;> exact ⟨rfl, rfl, rfl⟩

/-- A tick leaves the config that the reload leaves. -/
theorem sameConfig_tick (w : World) (d : Daemon) : SameConfig (d.reloadConfig w) (tick w d) :=
  (constituent_sameConfig w).skeleton.tick (fun _ _ => ⟨rfl, rfl, rfl⟩) d

/-! ## One step -/

theorem serve_of_dead (h : d.alive = false) : (d.serve s).alive = false := by
  obtain ⟨w, i, hi⟩ := s
  show (d.step (w, i)).alive = false
  rw [step_of_dead rfl h]
  cases i with
  | start => exact absurd rfl hi
  | _ => exact h

theorem reloadConfig_alive (w : World) (d : Daemon) : (d.reloadConfig w).alive = d.alive := by
  unfold reloadConfig
  split
  · rfl
  · split
    · rfl
    · exact (sameConfig_applyConfigChanges w d _).alive

/-- A tick leaves the process running, with the config that the reload leaves. -/
theorem serve_tick (h : d.alive = true) (ht : s.input = .tick) :
    ∃ d₀, SameConfig d d₀ ∧ SameConfig (d₀.reloadConfig s.world) (d.serve s) ∧
      (d.serve s).alive = true := by
  obtain ⟨w, i, hi⟩ := s
  cases ht
  have hstep : d.serve ⟨w, .tick, hi⟩ = tick w { d with sent := [], calls := [] } :=
    step_of_alive rfl h w .tick
  refine ⟨{ d with sent := [], calls := [] }, ⟨rfl, rfl, rfl⟩, ?_, ?_⟩
  · rw [hstep]
    exact sameConfig_tick w _
  · rw [hstep, (sameConfig_tick w _).alive, reloadConfig_alive]
    exact h

/-- Where no file is read, the config in force stays. -/
theorem serve_kept (h : d.alive = true) (hfile : s.file = none) :
    (d.serve s).currentConfig = d.currentConfig := by
  by_cases ht : s.input = .tick
  · -- the file does not load, and the config is kept
    obtain ⟨d₀, hsame, htick, _⟩ := serve_tick h ht
    have hload : s.world.loadConfig = none := by
      rw [← hfile, Served.file, ht]
    rw [htick.currentConfig, ← hsame.currentConfig]
    unfold reloadConfig
    rw [hload]
  · -- no other handler reads the file
    obtain ⟨w, i, hi⟩ := s
    obtain ⟨d', alive, hsame, hstep⟩ := (constituent_sameConfig w).skeleton.step
      (fun _ _ => ⟨rfl, rfl, rfl⟩) hi (fun u _ d => sameConfig_agentUpdate w d u)
      (fun htick => absurd htick ht) d
    show (d.step (w, i)).currentConfig = d.currentConfig
    rw [hstep]
    exact hsame.currentConfig

theorem tick_of_file (hfile : s.file = some config) :
    s.input = .tick ∧ s.world.loadConfig = some config := by
  unfold Served.file at hfile
  split at hfile
  · exact ⟨‹_›, hfile⟩
  · cases hfile

/-- A file with the hash of the config in force is not put in its place. -/
theorem serve_same (h : d.alive = true) (hfile : s.file = some config)
    (hhash : s.world.configHash config.hashed = d.lastConfigHash) :
    (d.serve s).alive = true ∧ (d.serve s).currentConfig = d.currentConfig := by
  obtain ⟨ht, hload⟩ := tick_of_file hfile
  obtain ⟨d₀, hsame, htick, halive⟩ := serve_tick h ht
  refine ⟨halive, ?_⟩
  rw [htick.currentConfig, ← hsame.currentConfig]
  rw [← hsame.lastConfigHash] at hhash
  unfold reloadConfig
  rw [hload]
  dsimp only
  rw [if_pos hhash]

/-- A file with another hash is. -/
theorem serve_new (h : d.alive = true) (hfile : s.file = some config)
    (hhash : s.world.configHash config.hashed ≠ d.lastConfigHash) :
    (d.serve s).alive = true ∧ (d.serve s).currentConfig = config := by
  obtain ⟨ht, hload⟩ := tick_of_file hfile
  obtain ⟨d₀, hsame, htick, halive⟩ := serve_tick h ht
  refine ⟨halive, ?_⟩
  rw [htick.currentConfig]
  rw [← hsame.lastConfigHash] at hhash
  unfold reloadConfig
  rw [hload]
  dsimp only
  rw [if_neg hhash]

/-! ## Runs -/

theorem latestFile_append (served : List Served) (s : Served) :
    latestFile (served ++ [s]) = s.file.or (latestFile served) := by
  unfold latestFile
  rw [List.filterMap_append]
  cases hf : s.file with
  | none => simp [hf]
  | some config => simp [hf]

/-- The same for a process that is running. -/
theorem inForce_serve_of_alive (h : d.alive = true) (hin : InForce served d) :
    ((d.serve s).alive = true → InForce (served ++ [s]) (d.serve s)) ↔ Followed d s := by
  have hlatest := latestFile_append served s
  cases hfile : s.file with
  | none =>
    refine iff_of_true ?_ (by simp [Followed, hfile])
    intro halive
    have hconfig := serve_kept h hfile
    rw [hfile, Option.none_or] at hlatest
    refine ⟨hconfig ▸ hin.valid, ?_⟩
    rw [hlatest, hconfig]
    exact hin.limits
  | some config =>
    rw [hfile, Option.some_or] at hlatest
    have hfollowed : Followed d s ↔
        if s.world.configHash config.hashed = d.lastConfigHash then
          d.currentConfig.SameLimits config
        else validateConfig config = [] := by
      simp [Followed, h, hfile]
    rw [hfollowed]
    by_cases hhash : s.world.configHash config.hashed = d.lastConfigHash
    · -- the config in force stays, so the limits of the file must be its own
      obtain ⟨halive, hconfig⟩ := serve_same h hfile hhash
      rw [if_pos hhash]
      refine ⟨?_, ?_⟩
      · intro hin'
        exact hconfig ▸ (hin' halive).limits config hlatest
      · intro hlimits _
        refine ⟨hconfig ▸ hin.valid, ?_⟩
        rw [hlatest, hconfig]
        intro c hc
        cases hc
        exact hlimits
    · -- the file is in force, so it must be valid
      obtain ⟨halive, hconfig⟩ := serve_new h hfile hhash
      rw [if_neg hhash]
      refine ⟨?_, ?_⟩
      · intro hin'
        exact hconfig ▸ (hin' halive).valid
      · intro hvalid _
        refine ⟨hconfig ▸ hvalid, ?_⟩
        rw [hlatest, hconfig]
        intro c hc
        cases hc
        exact fun _ => rfl

/-- What is in force stays so through the steps that are followed, and only through them. -/
theorem inForce_serve (hin : d.alive = true → InForce served d) :
    ((d.serve s).alive = true → InForce (served ++ [s]) (d.serve s)) ↔ Followed d s := by
  by_cases h : d.alive = true
  · exact inForce_serve_of_alive h (hin h)
  · have hdown : (d.serve s).alive = false := serve_of_dead (by simpa using h)
    refine iff_of_true ?_ (fun halive => absurd halive h)
    rw [hdown]
    exact nofun

theorem inForce_run (is : List Served) : ∀ (served : List Served) (d : Daemon),
    (d.alive = true → InForce served d) →
    ((∀ pre, pre <+: is → (run serve d pre).alive = true →
      InForce (served ++ pre) (run serve d pre)) ↔ Meets serve Followed d is) := by
  induction is with
  | nil =>
    intro served d hin
    simpa [Meets] using hin
  | cons s is ih =>
    intro served d hin
    refine ⟨?_, ?_⟩
    · intro h
      -- the prefix of one step gives the first condition, the longer ones the rest
      have hs : (d.serve s).alive = true → InForce (served ++ [s]) (d.serve s) :=
        h [s] (List.prefix_append [s] is)
      refine ⟨(inForce_serve hin).mp hs, (ih _ _ hs).mp ?_⟩
      intro pre hpre
      rw [List.append_assoc]
      exact h (s :: pre) ((List.prefix_cons_inj s).mpr hpre)
    · intro h pre hpre
      cases pre with
      | nil =>
        rw [List.append_nil]
        exact hin
      | cons t pre =>
        obtain ⟨rfl, hrest⟩ := List.cons_prefix_cons.mp hpre
        have hs := (ih _ _ ((inForce_serve hin).mpr h.1)).mpr h.2 pre hrest
        rwa [List.append_assoc] at hs

theorem sameConfig_boot {config : Config} (hw : w.startConfig = some config) (d : Daemon) :
    SameConfig { d with
      alive := true
      currentConfig := config
      lastConfigHash := w.configHash config.hashed } (d.boot w) := by
  have hspawn : ∀ (d : Daemon) (agent : AgentConfig), SameConfig d (d.spawnManagedAgent agent) :=
    fun _ _ => ⟨rfl, rfl, rfl⟩
  have hagents := sameConfig_foldl hspawn (config.agents.filter (·.autoStart))
  unfold boot
  rw [hw]
  exact ⟨(hagents _).currentConfig, (hagents _).lastConfigHash, (hagents _).alive⟩

/-- What the process starts with is in force. -/
theorem inForce_startUp (d : Daemon) (w : World) (file : Option Config)
    (h : (d.startUp w file).alive = true) : InForce [] (d.startUp w file) := by
  refine ⟨?_, nofun⟩
  unfold startUp at h ⊢
  rw [step_start] at h ⊢
  generalize hw : ({ w with
    startConfig := file.filter (fun config => (validateConfig config).isEmpty) } : World) = w' at h
  have hstart : w'.startConfig = file.filter (fun config => (validateConfig config).isEmpty) := by
    rw [← hw]
  cases hc : w'.startConfig with
  | none =>
    unfold boot at h
    rw [hc] at h
    cases h
  | some config =>
    rw [(sameConfig_boot hc _).currentConfig]
    rw [hc, eq_comm, Option.filter_eq_some_iff] at hstart
    exact List.isEmpty_iff.mp hstart.2

end

/-- The config in force is valid and its limits are those of the file, throughout what
follows a start of the process, exactly if every file that is read at a tick either has
a new hash and is valid, or has the hash of the config in force and its limits. -/
theorem inForce_iff (d : Daemon) (w : World) (file : Option Config) (is : List Served) :
    (∀ pre, pre <+: is → (run serve (d.startUp w file) pre).alive = true →
      InForce pre (run serve (d.startUp w file) pre)) ↔
      Meets serve Followed (d.startUp w file) is :=
  inForce_run is [] _ (inForce_startUp d w file)

/-! ## Two edits -/

/-- A tick that reads the file, where the hash tells configs apart by their agents. -/
def readsAt (config : Config) : Served where
  world :=
    { World.bare with
      loadConfig := some config
      configHash := fun fields => fields.2.length }
  input := .tick
  running := nofun

/-- The memory of a profile is limited. -/
def limitedConfig : Config :=
  { plannerConfig with agents := [{ autoAgent "planner" with memoryMib := some 512 }] }

/-- Two agents have one name. -/
def doubledConfig : Config :=
  { plannerConfig with agents := [autoAgent "planner", autoAgent "planner"] }

/-- Neither is a new limit put in force, nor is an invalid config kept out. -/
theorem not_inForce_edited :
    let d := (Daemon.off true none false).startUp (readsAt plannerConfig).world (some plannerConfig)
    d.alive = true ∧
      ¬ InForce [readsAt limitedConfig] (d.serve (readsAt limitedConfig)) ∧
      ¬ InForce [readsAt doubledConfig] (d.serve (readsAt doubledConfig)) := by
  intro d
  have halive : d.alive = true := by decide
  have hconfig : d.currentConfig = plannerConfig := by rfl
  have hhash : d.lastConfigHash = 1 := by rfl
  clear_value d
  refine ⟨halive, ?_, ?_⟩
  · intro h
    obtain ⟨_, hheld⟩ := serve_same (s := readsAt limitedConfig) halive rfl hhash.symm
    have hlimits := h.limits limitedConfig rfl { sandboxedJob with profileId := "planner" }
    rw [hheld, hconfig] at hlimits
    exact absurd hlimits (by decide)
  · intro h
    obtain ⟨_, hheld⟩ := serve_new (s := readsAt doubledConfig) halive rfl (by rw [hhash]; decide)
    have hvalid := validateConfig_eq_nil.mp (hheld ▸ h.valid)
    exact absurd hvalid.names (by decide)

end ZeptoPM
