import Mathlib.Algebra.Group.Nat.Defs
import ZeptoPM.HashMap

/- The orchestrator's data: runs, jobs, artifacts and channels, the planner's
   execution plan, and the actions a channel asks of the daemon. Records carry
   every field of the source. Counters are `u32` (`u32Succ` wraps as a release
   build does), times are whole units of the clock they are read from, and a
   path is its text. -/
namespace ZeptoPM

abbrev RunId := String
abbrev JobId := String
abbrev ArtifactId := String
abbrev ChannelId := String

/-- Wall-clock time, in milliseconds since the epoch. -/
abbrev SystemTime := Nat

/-- Monotonic time, in milliseconds. -/
abbrev Instant := Nat

abbrev PathBuf := String

/-- `n + 1` on a `u32`. -/
def u32Succ (n : Nat) : Nat := (n + 1) % 2 ^ 32

theorem u32Succ_of_lt {n : Nat} (h : n + 1 < 2 ^ 32) : u32Succ n = n + 1 := Nat.mod_eq_of_lt h

theorem u32Succ_ne {n : Nat} : u32Succ n ≠ n := by
  unfold u32Succ
  omega

/-- `Path::join`: an absolute right-hand side replaces the left. -/
def PathBuf.join (base other : PathBuf) : PathBuf :=
  if other.toList.head? = some '/' then other
  else if base = "" ∨ base.toList.getLast? = some '/' then base ++ other
  else base ++ "/" ++ other

inductive RunStatus where
  | pending | running | completed | failed | cancelled
  deriving DecidableEq, Repr

inductive JobStatus where
  | pending | ready | running | completed | failed | cancelled
  deriving DecidableEq, Repr

structure Run where
  runId : RunId
  task : String
  status : RunStatus
  createdAt : SystemTime
  updatedAt : SystemTime
  rootJobId : JobId
  finalArtifactIds : List ArtifactId
  metadata : List (String × String)
  deriving DecidableEq, Repr

structure Job where
  jobId : JobId
  runId : RunId
  parentJobId : Option JobId
  role : String
  status : JobStatus
  instruction : String
  inputArtifactIds : List ArtifactId
  dependsOn : List JobId
  children : List JobId
  profileId : String
  workspaceDir : PathBuf
  attempt : Nat
  maxAttempts : Nat
  createdAt : SystemTime
  startedAt : Option SystemTime
  finishedAt : Option SystemTime
  outputArtifactIds : List ArtifactId
  error : Option String
  revisionRound : Nat
  deriving DecidableEq, Repr

structure Artifact where
  artifactId : ArtifactId
  runId : RunId
  jobId : JobId
  kind : String
  path : PathBuf
  summary : String
  createdAt : SystemTime
  deriving DecidableEq, Repr

inductive ChannelMode where
  | turnBased | stream
  deriving DecidableEq, Repr

inductive PeerFailure where
  | killAll | continue
  deriving DecidableEq, Repr

instance : Inhabited PeerFailure := ⟨.killAll⟩

structure ChannelMessage where
  fromJob : JobId
  content : String
  timestamp : SystemTime
  round : Nat
  deriving DecidableEq, Repr

structure Channel where
  channelId : ChannelId
  runId : RunId
  participants : List JobId
  mode : ChannelMode
  maxRounds : Option Nat
  onPeerFailure : PeerFailure
  currentRound : Nat
  currentSpeakerIdx : Nat
  active : Bool
  closed : Bool
  history : List ChannelMessage
  initialMessage : Option String
  deriving DecidableEq, Repr

structure PlannedChannel where
  channelId : String
  participants : List String
  mode : ChannelMode
  maxRounds : Option Nat
  onPeerFailure : PeerFailure
  initialMessage : Option String
  deriving DecidableEq, Repr

structure PlannedJob where
  localId : String
  role : String
  profileId : String
  instruction : String
  dependsOn : List String
  deriving DecidableEq, Repr

/-- Planner output: the jobs and channels to create. -/
structure ExecutionPlan where
  jobs : List PlannedJob
  channels : List PlannedChannel
  deriving DecidableEq, Repr

/-- What the daemon is asked to do after a channel operation. -/
inductive ChannelAction where
  | sendTo (jobId : JobId) (message : String)
  | broadcast (jobIds : List JobId) (message : String)
  | close (channelId : ChannelId)
  | killParticipants (jobIds : List JobId)
  | notifyPeers (jobIds : List JobId) (message : String)
  | noOp
  deriving DecidableEq, Repr

/-- A reviewer's decision after examining a coder's output. -/
inductive ReviewDecision where
  | approved
  | revise (feedback : String)
  | rejected (reason : String)
  deriving DecidableEq, Repr

/-- The statuses that keep a run from being finished. -/
def JobStatus.unfinished : JobStatus → Bool
  | .pending | .ready | .running => true
  | .completed | .failed | .cancelled => false

/-- `{:?}` of a run status. -/
def RunStatus.text : RunStatus → String
  | .pending => "Pending"
  | .running => "Running"
  | .completed => "Completed"
  | .failed => "Failed"
  | .cancelled => "Cancelled"

/-- A run that has been declared over by its jobs. -/
def RunStatus.finished : RunStatus → Bool
  | .completed | .failed => true
  | .pending | .running | .cancelled => false

end ZeptoPM
