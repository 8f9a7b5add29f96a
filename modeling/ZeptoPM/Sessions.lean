import Mathlib.Data.List.Sublists
import Mathlib.Logic.Function.Basic
import ZeptoPM.Dialogue
import ZeptoPM.Reload

/- Saved sessions. Every worker of a profile loads the profile's session file when it
   starts, has a history of its own from then on and writes that in the file's place after
   each chat and when it is told to stop; the long-lived agent of the profile and the
   workers of jobs all do so. A save empties the file and then writes the text to it, in as
   many pieces as that takes, and can be cut short at each of them. `sessions_kept` tells
   when the file has every exchange that the agent has answered. -/
namespace ZeptoPM

/-! ## The session file -/

/-- `trim_start_matches("~/")`. -/
def trimTildes : List Char → List Char
  | '~' :: '/' :: rest => trimTildes rest
  | cs => cs

/-- Resolve the sessions directory path. -/
def resolveSessionsDir (home : Option PathBuf) (config : Config) : PathBuf :=
  match config.daemon.sessionsDir with
  | some dir =>
    if dir.toList.head? = some '~' then
      (home.map (fun h => h.join (.ofList (trimTildes dir.toList)))).getD dir
    else dir
  | none => ((home.getD ".").join ".zeptopm").join "sessions"

/-- Get the session file path for a given agent. -/
def sessionFile (home : Option PathBuf) (config : Config) (agentName : String) : PathBuf :=
  (resolveSessionsDir home config).join (agentName ++ ".json")

/-- How `serde_json` writes and reads a history. A text that is cut short is not read. -/
structure SessionFormat (Message Byte : Type) where
  toStringPretty : List Message → List Byte
  fromStr : List Byte → Option (List Message)
  fromStr_toStringPretty : ∀ history, fromStr (toStringPretty history) = some history
  fromStr_nil : fromStr [] = none
  fromStr_cut : ∀ history cut, cut <+: toStringPretty history → cut ≠ toStringPretty history →
    fromStr cut = none

/-- A file after a piece has been written at an offset. -/
def overlay {Byte : Type} [Inhabited Byte] (file : List Byte) (offset : Nat) (piece : List Byte) :
    List Byte :=
  file.take offset ++ List.replicate (offset - file.length) default ++ piece ++
    file.drop (offset + piece.length)

/-- Truncate history to at most `max` messages (keeping the most recent). -/
def truncateHistory {Message : Type} (history : List Message) : Option Nat → List Message
  | none => history
  | some max =>
    if history.length ≤ max then history
    else if max - max % 2 = 0 then []
    else history.drop (history.length - (max - max % 2))

/-! ## The library's agents -/

/-- What a chat returns. -/
abbrev ChatResult := Except String String

/-- The agents that the library builds, by what their `history` is: of one built with a
history, or without, after the chats it has had. -/
structure AgentLibrary (Message : Type) where
  history : Option (List Message) → Transcript String ChatResult → List Message

/-- An agent begins with the history it is given, and a chat adds to it. -/
structure AgentLibrary.Remembering {Message : Type} (library : AgentLibrary Message) : Prop where
  new : library.history none [] = []
  withHistory : ∀ saved, library.history (some saved) [] = saved
  chat : ∀ restored chats message result,
    library.history restored chats <+: library.history restored (chats ++ [(message, result)])

/-! ## A worker -/

/-- What a worker is about to do. -/
inductive Turn (Byte : Type) where
  | free
  /-- To save, and to end after that if it has been told to stop. -/
  | due (last : Bool)
  /-- To write on in the text, from the offset. -/
  | writing (last : Bool) (text : List Byte) (offset : Nat)

def Turn.isWriting {Byte : Type} : Turn Byte → Bool
  | .writing .. => true
  | _ => false

structure AgentWorker (Message Byte : Type) where
  sessionFile : Option PathBuf
  maxHistory : Option Nat
  /-- The history that its agent has been built with. -/
  restored : Option (List Message)
  chats : Transcript String ChatResult
  turn : Turn Byte

section
variable {Message Byte : Type} (library : AgentLibrary Message)
  (format : SessionFormat Message Byte)

/-- Load conversation history from a JSON file. -/
def loadHistory (files : PathBuf → Option (List Byte)) (path : PathBuf) : Option (List Message) :=
  (files path).bind format.fromStr

namespace AgentWorker

/-- The worker process starts with the history that has been saved. -/
def start (home : Option PathBuf) (config : Config) (agentName : String)
    (files : PathBuf → Option (List Byte)) : Option (AgentWorker Message Byte) :=
  (firstNamed config.agents agentName).map (fun agentConfig =>
    let file := if agentConfig.sessionPersist then some (ZeptoPM.sessionFile home config agentName)
      else none
    let savedHistory := (file.bind (loadHistory format files)).getD []
    { sessionFile := file
      maxHistory := agentConfig.maxHistory
      restored := if savedHistory.isEmpty then none else some savedHistory
      chats := []
      turn := .free })

def history (worker : AgentWorker Message Byte) : List Message :=
  library.history worker.restored worker.chats

def said (worker : AgentWorker Message Byte) (message : String) (result : ChatResult) :
    AgentWorker Message Byte :=
  { worker with chats := worker.chats ++ [(message, result)] }

/-- The messages that a chat adds to the history. -/
def exchange (worker : AgentWorker Message Byte) (message : String) (result : ChatResult) :
    List Message :=
  ((worker.said message result).history library).drop (worker.history library).length

/-- What `save_history` writes: the history, truncated if `max_history` is set. -/
def text (worker : AgentWorker Message Byte) : List Byte :=
  format.toStringPretty (truncateHistory (worker.history library) worker.maxHistory)

/-- The worker when a save is over, however it went. -/
def next (worker : AgentWorker Message Byte) (last : Bool) : Option (AgentWorker Message Byte) :=
  if last then none else some { worker with turn := .free }

/-- The worker keeps its history in the file, or as much of it as it may. -/
def Persists (path : PathBuf) (max : Option Nat) (worker : AgentWorker Message Byte) : Prop :=
  worker.sessionFile = some path ∧ worker.maxHistory = max

end AgentWorker

/-! ## The workers of a profile -/

/-- The processes that the daemon spawns for a profile: its agent, and workers of jobs. -/
inductive Process where
  | agent
  | job (n : Nat)
  deriving DecidableEq, Repr

/-- What happens to a worker. -/
inductive WorkerInput where
  | start
  /-- A `chat` is over. -/
  | chat (message : String) (result : ChatResult)
  | jobExecute (message : String) (result : ChatResult)
  | stop
  /-- The file is opened and emptied for a save, or cannot be opened. -/
  | create (ok : Bool)
  /-- So many bytes of a save are written, none if that fails. -/
  | write (n : Nat)
  /-- The process ends without having been told to stop. -/
  | exit
  deriving DecidableEq

/-- What there was when a process loaded the session file: how many exchanges the agent
had answered, and how many of them were saved. -/
structure Mark where
  answered : Nat
  saved : Nat

structure Sessions (Message Byte : Type) where
  files : PathBuf → Option (List Byte)
  workers : Process → Option (AgentWorker Message Byte)
  /-- The exchanges that the agent has answered, each with the messages of it. -/
  answered : List (List Message)
  /-- How many of them there were when a save was complete, none while another is made. -/
  saved : Nat
  /-- Who has opened the file for a save last, until that is over. -/
  writer : Option Process
  marks : Process → Mark

namespace Sessions

def initial (files : PathBuf → Option (List Byte)) : Sessions Message Byte where
  files := files
  workers := fun _ => none
  answered := []
  saved := 0
  writer := none
  marks := fun _ => ⟨0, 0⟩

/-- The save of a process is over, and it goes on or ends. -/
def release (s : Sessions Message Byte) (p : Process) (after : Option (AgentWorker Message Byte)) :
    Sessions Message Byte :=
  { s with
    workers := Function.update s.workers p after
    writer := if s.writer = some p then none else s.writer }

/-- One input of a process that is running. -/
def act [Inhabited Byte] (s : Sessions Message Byte) (p : Process)
    (worker : AgentWorker Message Byte) (input : WorkerInput) : Sessions Message Byte :=
  match input, worker.turn, worker.sessionFile with
  | .chat message result, .free, file =>
    { s with
      workers := Function.update s.workers p (some { worker.said message result with
        turn := if file.isSome then .due false else .free })
      answered := s.answered ++
        if p = .agent ∧ result.toBool then [worker.exchange library message result] else [] }
  | .jobExecute message result, .free, _ =>
    { s with workers := Function.update s.workers p (some (worker.said message result)) }
  | .stop, .free, some _ =>
    { s with workers := Function.update s.workers p (some { worker with turn := .due true }) }
  | .stop, .free, none => s.release p none
  | .create true, .due last, some path =>
    { s with
      files := Function.update s.files path (some [])
      workers := Function.update s.workers p
        (some { worker with turn := .writing last (worker.text library format) 0 })
      saved := 0
      writer := some p }
  | .create false, .due last, some _ => s.release p (worker.next last)
  | .write n, .writing last text offset, some path =>
    if n = 0 then s.release p (worker.next last)
    else
      let files := Function.update s.files path
        (some (overlay ((s.files path).getD []) offset ((text.drop offset).take n)))
      if text.length ≤ offset + n then
        { s.release p (worker.next last) with files := files, saved := s.answered.length }
      else
        { s with
          files := files
          workers := Function.update s.workers p
            (some { worker with turn := .writing last text (offset + n) }) }
  | .exit, _, _ => s.release p none
  | _, _, _ => s

/-- One input of one process. -/
def step [Inhabited Byte] (home : Option PathBuf) (config : Config) (profile : String)
    (s : Sessions Message Byte) (x : Process × WorkerInput) : Sessions Message Byte :=
  match s.workers x.1, x.2 with
  | none, .start =>
    match AgentWorker.start format home config profile s.files with
    | none => s
    | some worker =>
      { s with
        workers := Function.update s.workers x.1 (some worker)
        marks := Function.update s.marks x.1 ⟨s.answered.length, s.saved⟩ }
  | some worker, input => s.act library format x.1 worker input
  | _, _ => s

/-- What the process is about to do, if it is running. -/
def turnOf (s : Sessions Message Byte) (p : Process) : Option (Turn Byte) :=
  (s.workers p).map (·.turn)

/-- The input completes a save. -/
def completes (s : Sessions Message Byte) (x : Process × WorkerInput) : Bool :=
  match s.turnOf x.1, x.2 with
  | some (.writing _ text offset), .write n => n != 0 && decide (text.length ≤ offset + n)
  | _, _ => false

/-- The input puts an end to a save that is not complete. -/
def breaks (s : Sessions Message Byte) (x : Process × WorkerInput) : Bool :=
  match s.turnOf x.1, x.2 with
  | some (.due _), .create ok => !ok
  | some (.writing ..), .write n => n == 0
  | some (.writing ..), .exit => true
  | _, _ => false

/-- A save is over. -/
def ends (s : Sessions Message Byte) (x : Process × WorkerInput) : Bool :=
  s.completes x || s.breaks x

/-- The input opens the file for a save. -/
def opens (s : Sessions Message Byte) (x : Process × WorkerInput) : Bool :=
  match s.turnOf x.1, x.2 with
  | some (.due _), .create ok => ok
  | _, _ => false

/-- The messages that the input adds to the history of the worker. -/
def messages (s : Sessions Message Byte) (x : Process × WorkerInput) : List Message :=
  match s.workers x.1, x.2 with
  | some worker, .chat message result | some worker, .jobExecute message result =>
    match worker.turn with
    | .free => worker.exchange library message result
    | _ => []
  | _, _ => []

/-- The agent answers. -/
def answers (s : Sessions Message Byte) (x : Process × WorkerInput) : Bool :=
  match s.turnOf x.1, x.2 with
  | some .free, .chat _ result => x.1 = .agent && result.toBool
  | _, _ => false

/-- What a process that starts finds in the session file. -/
def restored (path : PathBuf) (s : Sessions Message Byte) : List Message :=
  (loadHistory format s.files path).getD []

/-- The agent, if it started now, would have every exchange that it has answered. -/
def Kept (home : Option PathBuf) (config : Config) (profile : String)
    (s : Sessions Message Byte) : Prop :=
  ∃ worker, AgentWorker.start format home config profile s.files = some worker ∧
    s.answered.flatten.Sublist (worker.history library)

/-- The process has loaded the file with no answer unsaved and, if it is that of a job, the
agent has answered nothing since then. -/
def Fresh (s : Sessions Message Byte) (p : Process) : Prop :=
  (s.marks p).saved = (s.marks p).answered ∧
    (p = .agent ∨ (s.marks p).answered = s.answered.length)

instance (s : Sessions Message Byte) (p : Process) : Decidable (s.Fresh p) :=
  inferInstanceAs (Decidable (_ ∧ _))

/-- Only fresh processes complete a save, and a save is cut short only when everything is
saved. -/
def SavesFresh (s : Sessions Message Byte) (x : Process × WorkerInput) : Prop :=
  (s.completes x = true → s.Fresh x.1) ∧ (s.breaks x = true → s.saved = s.answered.length)

instance (s : Sessions Message Byte) (x : Process × WorkerInput) : Decidable (s.SavesFresh x) :=
  inferInstanceAs (Decidable ((_ → _) ∧ (_ → _)))

/-- No process opens the file for a save while another is writing it. -/
def Alone (s : Sessions Message Byte) (x : Process × WorkerInput) : Prop :=
  s.opens x = true → s.writer = none

instance (s : Sessions Message Byte) (x : Process × WorkerInput) : Decidable (s.Alone x) :=
  inferInstanceAs (Decidable (_ → _))

end Sessions

end

/-! ## Files -/

theorem overlay_take {Byte : Type} [Inhabited Byte] {text : List Byte} {offset : Nat}
    (h : offset ≤ text.length) (n : Nat) :
    overlay (text.take offset) offset ((text.drop offset).take n) = text.take (offset + n) := by
  have hlen : (text.take offset).length = offset := by
    rw [List.length_take]
    exact Nat.min_eq_left h
  have hbeyond : (text.take offset).drop (offset + ((text.drop offset).take n).length) = [] :=
    List.drop_eq_nil_of_le (by omega)
  unfold overlay
  rw [hlen, hbeyond, Nat.sub_self, List.replicate_zero, List.append_nil, List.append_nil,
    List.take_take, Nat.min_self, List.take_add]

section
variable {Message Byte : Type} {library : AgentLibrary Message}
  {format : SessionFormat Message Byte} {worker : AgentWorker Message Byte}
  {path : PathBuf} {home : Option PathBuf} {config : Config} {profile : String}
  {agentConfig : AgentConfig}

theorem loadHistory_update (content : List Byte) :
    loadHistory format (Function.update files path (some content)) path =
      format.fromStr content := by
  rw [loadHistory, Function.update_self]
  rfl

theorem restored_opened (files : PathBuf → Option (List Byte)) :
    (loadHistory format (Function.update files path (some [])) path).getD [] = [] := by
  rw [loadHistory_update, format.fromStr_nil]
  rfl

/-- A text that can be read is not empty. -/
theorem SessionFormat.text_ne_nil (format : SessionFormat Message Byte) (history : List Message) :
    format.toStringPretty history ≠ [] := by
  intro h
  have hread := format.fromStr_toStringPretty history
  rw [h, format.fromStr_nil] at hread
  cases hread

/-- What has been written of a text is not read until all of it has. -/
theorem SessionFormat.fromStr_take (format : SessionFormat Message Byte) (history : List Message)
    {n : Nat} (h : n < (format.toStringPretty history).length) :
    format.fromStr ((format.toStringPretty history).take n) = none := by
  refine format.fromStr_cut history _ (List.take_prefix ..) fun heq => ?_
  have hlen := congrArg List.length heq
  rw [List.length_take] at hlen
  omega

theorem AgentWorker.history_said (hlib : library.Remembering) (worker : AgentWorker Message Byte)
    (message : String) (result : ChatResult) :
    (worker.said message result).history library =
      worker.history library ++ worker.exchange library message result := by
  obtain ⟨added, hadded⟩ := hlib.chat worker.restored worker.chats message result
  have hsaid : (worker.said message result).history library =
      worker.history library ++ added := hadded.symm
  rw [AgentWorker.exchange, hsaid, List.drop_left]

/-- An agent that starts has what its worker has found in the file. -/
theorem history_started (hlib : library.Remembering) (file : Option PathBuf) (max : Option Nat)
    (saved : List Message) (turn : Turn Byte) :
    AgentWorker.history library
      { sessionFile := file
        maxHistory := max
        restored := if saved.isEmpty then none else some saved
        chats := []
        turn := turn } = saved := by
  cases saved with
  | nil => exact hlib.new
  | cons m rest => exact hlib.withHistory (m :: rest)

theorem start_eq (hagent : firstNamed config.agents profile = some agentConfig)
    (hpersist : agentConfig.sessionPersist = true) (files : PathBuf → Option (List Byte)) :
    AgentWorker.start format home config profile files = some
      { sessionFile := some (sessionFile home config profile)
        maxHistory := agentConfig.maxHistory
        restored :=
          if ((loadHistory format files (sessionFile home config profile)).getD []).isEmpty then
            none
          else some ((loadHistory format files (sessionFile home config profile)).getD [])
        chats := []
        turn := .free } := by
  unfold AgentWorker.start
  rw [hagent, Option.map_some, hpersist]
  rfl

theorem AgentWorker.mem_next {worker : AgentWorker Message Byte} {last : Bool} :
    ∀ w ∈ worker.next last, w = { worker with turn := .free } := by
  intro w hw
  cases last with
  | true => cases hw
  | false => exact (Option.some.inj hw).symm

theorem AgentWorker.text_of_persists {max : Option Nat} (h : worker.Persists path max) :
    worker.text library format =
      format.toStringPretty (truncateHistory (worker.history library) max) := by
  rw [AgentWorker.text, h.2]

end

/-! ## Workers and the file -/

section
variable {Message Byte : Type} {library : AgentLibrary Message}
  {format : SessionFormat Message Byte} {s : Sessions Message Byte} {home : Option PathBuf}
  {config : Config} {profile : String} {agentConfig : AgentConfig} {path : PathBuf}
  {max : Option Nat}

theorem kept_iff (hlib : library.Remembering)
    (hagent : firstNamed config.agents profile = some agentConfig)
    (hpersist : agentConfig.sessionPersist = true) :
    s.Kept library format home config profile ↔
      s.answered.flatten.Sublist (s.restored format (sessionFile home config profile)) := by
  unfold Sessions.Kept
  rw [start_eq hagent hpersist]
  constructor
  · rintro ⟨worker, hworker, hsub⟩
    rw [← Option.some.inj hworker, history_started hlib] at hsub
    exact hsub
  · intro hsub
    refine ⟨_, rfl, ?_⟩
    rw [history_started hlib]
    exact hsub

/-- What holds of workers, the file and marks whatever happens, as long as one process saves
at a time. -/
structure Sessions.Sound (library : AgentLibrary Message) (format : SessionFormat Message Byte)
    (path : PathBuf) (max : Option Nat) (s : Sessions Message Byte) : Prop where
  workers : ∀ p worker, s.workers p = some worker → worker.Persists path max
  saved : s.saved ≤ s.answered.length
  marks : ∀ p, (s.marks p).saved ≤ (s.marks p).answered ∧
    (s.marks p).answered ≤ s.answered.length
  writing : ∀ p worker, s.workers p = some worker → ∀ last text offset,
    worker.turn = .writing last text offset →
      s.writer = some p ∧ s.saved = 0 ∧ text = worker.text library format ∧
        offset < text.length ∧ s.files path = some (text.take offset)
  writer : ∀ p, s.writer = some p →
    ∃ worker, s.workers p = some worker ∧ worker.turn.isWriting = true

theorem workers_update {P : Process → AgentWorker Message Byte → Prop} {p : Process}
    {after : Option (AgentWorker Message Byte)}
    (hs : ∀ q worker, q ≠ p → s.workers q = some worker → P q worker)
    (hafter : ∀ worker ∈ after, P p worker) :
    ∀ q worker, Function.update s.workers p after q = some worker → P q worker := by
  intro q worker hq
  by_cases hp : q = p
  · subst hp
    rw [Function.update_self] at hq
    exact hafter worker hq
  · rw [Function.update_of_ne hp] at hq
    exact hs q worker hp hq

theorem writer_update {p q : Process} {after : Option (AgentWorker Message Byte)} (hq : q ≠ p)
    (h : ∃ worker, s.workers q = some worker ∧ worker.turn.isWriting = true) :
    ∃ worker, Function.update s.workers p after q = some worker ∧
      worker.turn.isWriting = true := by
  rwa [Function.update_of_ne hq]

theorem Turn.isWriting_eq {turn : Turn Byte} (h : turn.isWriting = true) :
    ∃ last text offset, turn = .writing last text offset := by
  cases turn with
  | writing last text offset => exact ⟨last, text, offset, rfl⟩
  | _ => cases h

/-- While a save is made the file is not read. -/
theorem Sessions.Sound.restored_writing (h : s.Sound library format path max) {p : Process}
    {worker : AgentWorker Message Byte} (hworker : s.workers p = some worker)
    (hwriting : worker.turn.isWriting = true) : s.restored format path = [] := by
  obtain ⟨last, text, offset, hturn⟩ := Turn.isWriting_eq hwriting
  obtain ⟨_, _, rfl, hlt, hfile⟩ := h.writing p worker hworker last text offset hturn
  have hnone : format.fromStr ((worker.text library format).take offset) = none :=
    format.fromStr_take _ hlt
  rw [Sessions.restored, loadHistory, hfile, Option.bind_some, hnone]
  rfl

/-- A process that does not write has no part in the save of another. -/
theorem Sessions.Sound.idle_writer (h : s.Sound library format path max) {p q : Process}
    {worker : AgentWorker Message Byte} (hworker : s.workers p = some worker)
    (hidle : worker.turn.isWriting = false) (hq : s.writer = some q) : q ≠ p := by
  rintro rfl
  obtain ⟨w, hw, hwriting⟩ := h.writer q hq
  rw [hworker] at hw
  cases hw
  rw [hidle] at hwriting
  cases hwriting

/-- A process that starts writes nothing. -/
theorem Sessions.Sound.started (h : s.Sound library format path max) {p : Process}
    (hnone : s.workers p = none) {worker : AgentWorker Message Byte}
    (hworker : worker.Persists path max) (hturn : worker.turn.isWriting = false) :
    Sessions.Sound library format path max
      { s with
        workers := Function.update s.workers p (some worker)
        marks := Function.update s.marks p ⟨s.answered.length, s.saved⟩ } := by
  refine ⟨workers_update (fun q w _ => h.workers q w) ?_, h.saved, ?_,
    workers_update (fun q w _ => h.writing q w) ?_, fun q hq => writer_update ?_ (h.writer q hq)⟩
  · intro w hw
    cases hw
    exact hworker
  · intro q
    by_cases hp : q = p
    · subst hp
      simpa using h.saved
    · simpa [Function.update_of_ne hp] using h.marks q
  · intro w hw last text offset heq
    cases hw
    rw [heq] at hturn
    cases hturn
  · rintro rfl
    obtain ⟨w, hw, _⟩ := h.writer _ hq
    rw [hnone] at hw
    cases hw

/-- Neither does one that talks, before and after. -/
theorem Sessions.Sound.talked (h : s.Sound library format path max) {p : Process}
    {worker worker' : AgentWorker Message Byte} (hworker : s.workers p = some worker)
    (hidle : worker.turn.isWriting = false)
    (hsame : worker'.sessionFile = worker.sessionFile ∧ worker'.maxHistory = worker.maxHistory)
    (hturn : worker'.turn.isWriting = false) (added : List (List Message)) :
    Sessions.Sound library format path max
      { s with
        workers := Function.update s.workers p (some worker')
        answered := s.answered ++ added } := by
  have hlen : s.answered.length ≤ (s.answered ++ added).length := by simp
  refine ⟨workers_update (fun q w _ => h.workers q w) ?_, h.saved.trans hlen,
    fun p => ⟨(h.marks p).1, (h.marks p).2.trans hlen⟩,
    workers_update (fun q w _ => h.writing q w) ?_,
    fun q hq => writer_update (h.idle_writer hworker hidle hq) (h.writer q hq)⟩
  · intro w hw
    cases hw
    obtain ⟨hfile, hmax⟩ := h.workers _ worker hworker
    exact ⟨hsame.1.trans hfile, hsame.2.trans hmax⟩
  · intro w hw last text offset heq
    cases hw
    rw [heq] at hturn
    cases hturn

/-- Where nobody writes, a process can open the file. -/
theorem Sessions.Sound.opened (h : s.Sound library format path max) (hnone : s.writer = none)
    {p : Process} {worker : AgentWorker Message Byte} (hworker : s.workers p = some worker)
    (last : Bool) :
    Sessions.Sound library format path max
      { s with
        files := Function.update s.files path (some [])
        workers := Function.update s.workers p
          (some { worker with turn := .writing last (worker.text library format) 0 })
        saved := 0
        writer := some p } := by
  refine ⟨workers_update (fun q w _ => h.workers q w) ?_, Nat.zero_le _, h.marks,
    workers_update (fun q w _ hw last text offset heq => ?_) ?_, fun q hq => ?_⟩
  · intro w hw
    cases hw
    exact h.workers _ worker hworker
  · -- nobody else is writing
    have hwriter := (h.writing q w hw last text offset heq).1
    rw [hnone] at hwriter
    cases hwriter
  · intro w hw last' text offset heq
    cases hw
    cases heq
    refine ⟨rfl, rfl, rfl, ?_, Function.update_self ..⟩
    exact List.length_pos_iff.mpr (format.text_ne_nil _)
  · cases hq
    exact ⟨_, Function.update_self .., rfl⟩

/-- The others go on when the save of a process is over. -/
theorem Sessions.Sound.release (h : s.Sound library format path max) {p : Process}
    {worker : AgentWorker Message Byte} (hworker : s.workers p = some worker)
    {after : Option (AgentWorker Message Byte)}
    (hafter : ∀ w ∈ after, w = { worker with turn := .free }) :
    (s.release p after).Sound library format path max := by
  refine ⟨workers_update (fun q w _ => h.workers q w) ?_, h.saved, h.marks,
    workers_update (fun q w hq hw last text offset heq => ?_) ?_, fun q hq => ?_⟩
  · intro w hw
    rw [hafter w hw]
    exact h.workers _ worker hworker
  · obtain ⟨hwriter, hrest⟩ := h.writing q w hw last text offset heq
    refine ⟨?_, hrest⟩
    show (if s.writer = some p then none else s.writer) = some q
    rw [if_neg, hwriter]
    rw [hwriter]
    exact fun heq => hq (Option.some.inj heq)
  · intro w hw last' text' offset' heq
    rw [hafter w hw] at heq
    cases heq
  · have hq : (if s.writer = some p then none else s.writer) = some q := hq
    split at hq
    · cases hq
    · rename_i hne
      refine writer_update (fun heq => hne ?_) (h.writer q hq)
      rw [← heq, hq]

/-- Where nobody writes, nothing is asked of the file. -/
theorem Sessions.Sound.rest (h : s.Sound library format path max) (hnone : s.writer = none)
    (files : PathBuf → Option (List Byte)) :
    Sessions.Sound library format path max
      { s with files := files, saved := s.answered.length } := by
  refine ⟨h.workers, Nat.le_refl _, h.marks, fun q w hw last text offset heq => ?_, h.writer⟩
  have hwriter := (h.writing q w hw last text offset heq).1
  rw [hnone] at hwriter
  cases hwriter

theorem Sessions.turnOf_some {p : Process} {worker : AgentWorker Message Byte}
    (h : s.workers p = some worker) : s.turnOf p = some worker.turn := by
  rw [Sessions.turnOf, h]
  rfl

theorem breaks_of_completes {x : Process × WorkerInput} (h : s.completes x = true) :
    s.breaks x = false := by
  unfold Sessions.completes at h
  unfold Sessions.breaks
  split at h
  · rename_i hturn hinput
    rw [hturn, hinput]
    simpa using (Bool.and_eq_true_iff.mp h).1
  · cases h

/-- The process cannot have the exchange of that index: it was answered and not saved when
the process loaded the file, or the process is that of a job and it was answered later. -/
def Mark.Misses (mark : Mark) (p : Process) (i : Nat) : Prop :=
  mark.saved ≤ i ∧ i < mark.answered ∨ p ≠ .agent ∧ mark.answered ≤ i

theorem exists_misses (hs : s.Sound library format path max) {p : Process} (h : ¬ s.Fresh p) :
    ∃ i, i < s.answered.length ∧ (s.marks p).Misses p i := by
  obtain ⟨hsaved, hanswered⟩ := hs.marks p
  by_cases hmark : (s.marks p).saved = (s.marks p).answered
  · have hp : p ≠ .agent ∧ (s.marks p).answered ≠ s.answered.length := by
      simpa [Sessions.Fresh, hmark] using h
    exact ⟨(s.marks p).answered, by omega, Or.inr ⟨hp.1, Nat.le_refl _⟩⟩
  · exact ⟨(s.marks p).saved, by omega, Or.inl ⟨Nat.le_refl _, by omega⟩⟩

theorem Sessions.sound_initial (files : PathBuf → Option (List Byte)) (max : Option Nat) :
    (Sessions.initial files).Sound library format path max :=
  ⟨nofun, Nat.le_refl _, fun _ => ⟨Nat.le_refl _, Nat.le_refl _⟩, nofun, nofun⟩

/-- What is known where only fresh processes have completed a save: the file has every exchange
if none is unsaved, and so has the history of every fresh process. -/
structure Sessions.Covered (library : AgentLibrary Message) (format : SessionFormat Message Byte)
    (path : PathBuf) (s : Sessions Message Byte) : Prop where
  file : s.saved = s.answered.length → s.answered.flatten.Sublist (s.restored format path)
  fresh : ∀ p worker, s.workers p = some worker → s.Fresh p →
    s.answered.flatten.Sublist (worker.history library)

theorem Sessions.covered_initial (files : PathBuf → Option (List Byte)) :
    (Sessions.initial files).Covered library format path :=
  ⟨fun _ => List.nil_sublist _, nofun⟩

end

/-! ## What an input does -/

/-- The seven things that an input may do. -/
inductive Sessions.Moves {Message Byte : Type} [Inhabited Byte] (library : AgentLibrary Message)
    (format : SessionFormat Message Byte) (path : PathBuf) (max : Option Nat)
    (s : Sessions Message Byte) (x : Process × WorkerInput) : Sessions Message Byte → Prop
  | nothing (hends : s.ends x = false) (hopens : s.opens x = false)
      (hsilent : s.messages library x = []) :
      Moves library format path max s x s
  | started (hends : s.ends x = false) (hopens : s.opens x = false)
      (hsilent : s.messages library x = []) (hstart : x.2 = .start) (hnone : s.workers x.1 = none)
      (worker : AgentWorker Message Byte) (hworker : worker.Persists path max)
      (hturn : worker.turn.isWriting = false)
      (hhistory : worker.history library = s.restored format path) :
      Moves library format path max s x
        { s with
          workers := Function.update s.workers x.1 (some worker)
          marks := Function.update s.marks x.1 ⟨s.answered.length, s.saved⟩ }
  | talked (hends : s.ends x = false) (hopens : s.opens x = false)
      (worker : AgentWorker Message Byte) (hworker : s.workers x.1 = some worker)
      (hidle : worker.turn.isWriting = false) (worker' : AgentWorker Message Byte)
      (hsame : worker'.sessionFile = worker.sessionFile ∧ worker'.maxHistory = worker.maxHistory)
      (hturn : worker'.turn.isWriting = false)
      (hhistory : worker'.history library = worker.history library ++ s.messages library x)
      (added : List (List Message))
      (hadded : added = [] ∨
        x.1 = .agent ∧ added = [s.messages library x] ∧ s.answers x = true) :
      Moves library format path max s x
        { s with
          workers := Function.update s.workers x.1 (some worker')
          answered := s.answered ++ added }
  | opened (hends : s.ends x = false) (hopens : s.opens x = true)
      (hsilent : s.messages library x = []) (worker : AgentWorker Message Byte)
      (hworker : s.workers x.1 = some worker) (last : Bool) :
      Moves library format path max s x
        { s with
          files := Function.update s.files path (some [])
          workers := Function.update s.workers x.1
            (some { worker with turn := .writing last (worker.text library format) 0 })
          saved := 0
          writer := some x.1 }
  | wrote (hends : s.ends x = false) (hopens : s.opens x = false)
      (hsilent : s.messages library x = []) (worker : AgentWorker Message Byte)
      (hworker : s.workers x.1 = some worker) (last : Bool) (text : List Byte) (offset n : Nat)
      (hturn : worker.turn = .writing last text offset) (hlt : offset + n < text.length) :
      Moves library format path max s x
        { s with
          files := Function.update s.files path
            (some (overlay ((s.files path).getD []) offset ((text.drop offset).take n)))
          workers := Function.update s.workers x.1
            (some { worker with turn := .writing last text (offset + n) }) }
  | completed (hyes : s.completes x = true) (hopens : s.opens x = false)
      (hsilent : s.messages library x = []) (worker : AgentWorker Message Byte)
      (hworker : s.workers x.1 = some worker) (last : Bool) (text : List Byte) (offset n : Nat)
      (hturn : worker.turn = .writing last text offset) (hle : text.length ≤ offset + n) :
      Moves library format path max s x
        { s.release x.1 (worker.next last) with
          files := Function.update s.files path
            (some (overlay ((s.files path).getD []) offset ((text.drop offset).take n)))
          saved := s.answered.length }
  | left (hno : s.completes x = false) (hopens : s.opens x = false)
      (hsilent : s.messages library x = []) (worker : AgentWorker Message Byte)
      (hworker : s.workers x.1 = some worker) (after : Option (AgentWorker Message Byte))
      (hafter : ∀ w ∈ after, w = { worker with turn := .free }) :
      Moves library format path max s x (s.release x.1 after)

section
variable {Message Byte : Type} [Inhabited Byte] {library : AgentLibrary Message}
  {format : SessionFormat Message Byte} {home : Option PathBuf} {config : Config}
  {profile : String} {agentConfig : AgentConfig} {s s' : Sessions Message Byte}
  {x : Process × WorkerInput}

section
variable {path : PathBuf} {bound max : Option Nat} {restored : Option (List Message)}
  {chats : Transcript String ChatResult} {p : Process}

/-- A worker that is free chats, or has a save to make before it ends. -/
theorem Sessions.moves_free (hlib : library.Remembering)
    (hworker : s.workers p = some ⟨some path, max, restored, chats, .free⟩) (input : WorkerInput) :
    s.Moves library format path bound (p, input)
      (s.act library format p ⟨some path, max, restored, chats, .free⟩ input) := by
  have hturnOf := Sessions.turnOf_some hworker
  have hends : ∀ i, s.ends (p, i) = false := by
    intro i
    simp [Sessions.ends, Sessions.completes, Sessions.breaks, hturnOf]
  have hopens : ∀ i, s.opens (p, i) = false := by
    intro i
    simp [Sessions.opens, hturnOf]
  cases input with
  | chat message result =>
    have hmessages : s.messages library (p, .chat message result) =
        AgentWorker.exchange library
          (⟨some path, max, restored, chats, .free⟩ : AgentWorker Message Byte) message result := by
      simp [Sessions.messages, hworker]
    refine .talked (hends _) (hopens _) _ hworker rfl
      ⟨some path, max, restored, chats ++ [(message, result)], .due false⟩ ⟨rfl, rfl⟩ rfl ?_ _ ?_
    · rw [hmessages]
      exact AgentWorker.history_said hlib ⟨some path, max, restored, chats, .free⟩ message result
    · rw [hmessages]
      split
      · rename_i hyes
        obtain ⟨rfl, hok⟩ := hyes
        exact Or.inr ⟨rfl, rfl, by simp [Sessions.answers, hturnOf, hok]⟩
      · exact Or.inl rfl
  | jobExecute message result =>
    have hmessages : s.messages library (p, .jobExecute message result) =
        AgentWorker.exchange library
          (⟨some path, max, restored, chats, .free⟩ : AgentWorker Message Byte) message result := by
      simp [Sessions.messages, hworker]
    have hmoves : s.Moves library format path bound (p, .jobExecute message result) _ :=
      .talked (hends _) (hopens _) _ hworker rfl (AgentWorker.said _ message result) ⟨rfl, rfl⟩ rfl
        (hmessages ▸ AgentWorker.history_said hlib _ message result) [] (Or.inl rfl)
    rw [List.append_nil] at hmoves
    exact hmoves
  | stop =>
    have hmessages : s.messages library (p, .stop) = [] := by
      simp [Sessions.messages, hworker]
    have hmoves : s.Moves library format path bound (p, .stop) _ :=
      .talked (hends _) (hopens _) _ hworker rfl ⟨some path, max, restored, chats, .due true⟩
        ⟨rfl, rfl⟩ rfl (hmessages ▸ (List.append_nil _).symm) [] (Or.inl rfl)
    rw [List.append_nil] at hmoves
    exact hmoves
  | exit =>
    have hcompletes : s.completes (p, .exit) = false := by simp [Sessions.completes, hturnOf]
    exact .left hcompletes (hopens _) (by simp [Sessions.messages, hworker]) _ hworker none nofun
  | create ok =>
    have hsilent : s.messages library (p, .create ok) = [] := by
      simp [Sessions.messages, hworker]
    cases ok <;> exact .nothing (hends _) (hopens _) hsilent
  | _ => exact .nothing (hends _) (hopens _) (by simp [Sessions.messages, hworker])

/-- A worker that has a save to make opens the file, or fails to. -/
theorem Sessions.moves_due {last : Bool}
    (hworker : s.workers p = some ⟨some path, max, restored, chats, .due last⟩)
    (input : WorkerInput) :
    s.Moves library format path bound (p, input)
      (s.act library format p ⟨some path, max, restored, chats, .due last⟩ input) := by
  have hturnOf := Sessions.turnOf_some hworker
  have hsilent : ∀ i, s.messages library (p, i) = [] := by
    intro i
    cases i <;> simp [Sessions.messages, hworker]
  have hcompletes : ∀ i, s.completes (p, i) = false := by
    intro i
    simp [Sessions.completes, hturnOf]
  cases input with
  | create ok =>
    cases ok with
    | true =>
      refine .opened ?_ ?_ (hsilent _) _ hworker last
      · simp [Sessions.ends, hcompletes, Sessions.breaks, hturnOf]
      · simp [Sessions.opens, hturnOf]
    | false =>
      have hopens : s.opens (p, .create false) = false := by simp [Sessions.opens, hturnOf]
      exact .left (hcompletes _) hopens (hsilent _) _ hworker _ AgentWorker.mem_next
  | exit =>
    have hopens : s.opens (p, .exit) = false := by simp [Sessions.opens, hturnOf]
    exact .left (hcompletes _) hopens (hsilent _) _ hworker none nofun
  | _ =>
    refine .nothing ?_ ?_ (hsilent _)
    · simp [Sessions.ends, hcompletes, Sessions.breaks, hturnOf]
    · simp [Sessions.opens, hturnOf]

/-- A worker that writes goes on, and each write may be its last. -/
theorem Sessions.moves_writing {last : Bool} {text : List Byte} {offset : Nat}
    (hworker : s.workers p = some ⟨some path, max, restored, chats, .writing last text offset⟩)
    (input : WorkerInput) :
    s.Moves library format path bound (p, input)
      (s.act library format p ⟨some path, max, restored, chats, .writing last text offset⟩
        input) := by
  have hturnOf := Sessions.turnOf_some hworker
  have hsilent : ∀ i, s.messages library (p, i) = [] := by
    intro i
    cases i <;> simp [Sessions.messages, hworker]
  have hopens : ∀ i, s.opens (p, i) = false := by
    intro i
    simp [Sessions.opens, hturnOf]
  cases input with
  | write n =>
    unfold Sessions.act
    dsimp only
    split
    · rename_i hzero
      refine .left ?_ (hopens _) (hsilent _) _ hworker _ AgentWorker.mem_next
      simp [Sessions.completes, hturnOf, hzero]
    · rename_i hn
      split
      · rename_i hle
        refine .completed ?_ (hopens _) (hsilent _)
          ⟨some path, max, restored, chats, .writing last text offset⟩ hworker
          last text offset n rfl hle
        simp [Sessions.completes, hturnOf, hn, hle]
      · rename_i hlt
        refine .wrote ?_ (hopens _) (hsilent _)
          ⟨some path, max, restored, chats, .writing last text offset⟩ hworker
          last text offset n rfl (Nat.lt_of_not_le hlt)
        simp [Sessions.ends, Sessions.completes, Sessions.breaks, hturnOf, hn,
          Nat.lt_of_not_le hlt]
  | exit =>
    refine .left ?_ (hopens _) (hsilent _) _ hworker none nofun
    simp [Sessions.completes, hturnOf]
  | create ok =>
    have hends : s.ends (p, .create ok) = false := by
      simp [Sessions.ends, Sessions.completes, Sessions.breaks, hturnOf]
    cases ok <;> exact .nothing hends (hopens _) (hsilent _)
  | _ =>
    refine .nothing ?_ (hopens _) (hsilent _)
    simp [Sessions.ends, Sessions.completes, Sessions.breaks, hturnOf]

/-- What a worker that keeps its history in the file does. -/
theorem Sessions.moves_act (hlib : library.Remembering) {worker : AgentWorker Message Byte}
    (hworker : s.workers p = some worker) (hfile : worker.sessionFile = some path)
    (input : WorkerInput) :
    s.Moves library format path bound (p, input) (s.act library format p worker input) := by
  obtain ⟨file, max, restored, chats, turn⟩ := worker
  obtain rfl : file = some path := hfile
  cases turn with
  | free => exact Sessions.moves_free hlib hworker input
  | due last => exact Sessions.moves_due hworker input
  | writing last text offset => exact Sessions.moves_writing hworker input

end

/-- What an input does where all workers keep their histories in the file. -/
theorem Sessions.step_moves (hlib : library.Remembering)
    (hagent : firstNamed config.agents profile = some agentConfig)
    (hpersist : agentConfig.sessionPersist = true) {path : PathBuf}
    (hpath : sessionFile home config profile = path)
    (hworkers : ∀ p worker, s.workers p = some worker →
      worker.Persists path agentConfig.maxHistory) (x : Process × WorkerInput) :
    s.Moves library format path agentConfig.maxHistory x
      (s.step library format home config profile x) := by
  subst hpath
  obtain ⟨p, i⟩ := x
  unfold Sessions.step
  cases hworker : s.workers p with
  | none =>
    have hends : s.ends (p, i) = false := by
      simp [Sessions.ends, Sessions.completes, Sessions.breaks, Sessions.turnOf, hworker]
    have hopens : s.opens (p, i) = false := by simp [Sessions.opens, Sessions.turnOf, hworker]
    have hsilent : s.messages library (p, i) = [] := by simp [Sessions.messages, hworker]
    cases i with
    | start =>
      dsimp only
      rw [start_eq hagent hpersist]
      exact .started hends hopens hsilent rfl hworker _ ⟨rfl, rfl⟩ rfl (history_started hlib ..)
    | _ => exact .nothing hends hopens hsilent
  | some worker => exact Sessions.moves_act hlib hworker (hworkers p worker hworker).1 i

variable {path : PathBuf} {max : Option Nat}

/-- What a process that writes has written is a part of its text, and stays one. -/
theorem Sessions.Sound.wrote (h : s.Sound library format path max) {p : Process}
    {worker : AgentWorker Message Byte} (hworker : s.workers p = some worker) {last : Bool}
    {text : List Byte} {offset n : Nat} (hturn : worker.turn = .writing last text offset)
    (hlt : offset + n < text.length) :
    Sessions.Sound library format path max
      { s with
        files := Function.update s.files path
          (some (overlay ((s.files path).getD []) offset ((text.drop offset).take n)))
        workers := Function.update s.workers p
          (some { worker with turn := .writing last text (offset + n) }) } := by
  obtain ⟨hwriter, hsaved, htext, hoffset, hfile⟩ :=
    h.writing _ worker hworker last text offset hturn
  refine ⟨workers_update (fun q w _ => h.workers q w) ?_, h.saved, h.marks,
    workers_update (fun q w hq hw last text offset heq => ?_) ?_, fun q hq => ?_⟩
  · intro w hw
    cases hw
    exact h.workers _ worker hworker
  · have hother := (h.writing q w hw last text offset heq).1
    rw [hwriter] at hother
    exact absurd (Option.some.inj hother).symm hq
  · intro w hw last' text' offset' heq
    cases hw
    cases heq
    refine ⟨hwriter, hsaved, htext, hlt, ?_⟩
    show Function.update s.files path _ path = _
    rw [Function.update_self, hfile, Option.getD_some, overlay_take hoffset.le]
  · have hq : s.writer = some q := hq
    rw [hwriter] at hq
    cases hq
    exact ⟨_, Function.update_self .., rfl⟩

theorem Sessions.Sound.moves (h : s.Sound library format path max) (halone : s.Alone x)
    (hm : s.Moves library format path max x s') : s'.Sound library format path max := by
  cases hm with
  | nothing => exact h
  | started _ _ _ _ hnone worker hworker hturn => exact h.started hnone hworker hturn
  | talked _ _ worker hworker hidle worker' hsame hturn _ added =>
    exact h.talked hworker hidle hsame hturn added
  | opened _ hopens _ worker hworker last => exact h.opened (halone hopens) hworker last
  | wrote _ _ _ worker hworker last text offset n hturn hlt => exact h.wrote hworker hturn hlt
  | completed _ _ _ worker hworker last text offset n hturn hle =>
    -- the worker was the only one to write
    have hnone : (s.release x.1 (worker.next last)).writer = none :=
      if_pos (h.writing _ worker hworker last text offset hturn).1
    exact (h.release hworker AgentWorker.mem_next).rest hnone _
  | left _ _ _ worker hworker after hafter => exact h.release hworker hafter

/-! ## What fresh processes keep -/

/-- The file has the history of a process that has completed a save. -/
theorem restored_completed (h : s.Sound library format path max) {worker : AgentWorker Message Byte}
    (hworker : s.workers x.1 = some worker) {last : Bool} {text : List Byte} {offset n : Nat}
    (hturn : worker.turn = .writing last text offset) (hle : text.length ≤ offset + n) :
    (loadHistory format (Function.update s.files path
      (some (overlay ((s.files path).getD []) offset ((text.drop offset).take n)))) path).getD [] =
      truncateHistory (worker.history library) max := by
  obtain ⟨_, _, htext, hoffset, hfile⟩ := h.writing _ worker hworker last text offset hturn
  rw [loadHistory_update, hfile, Option.getD_some, overlay_take hoffset.le,
    List.take_of_length_le hle, htext, AgentWorker.text_of_persists (h.workers _ worker hworker),
    format.fromStr_toStringPretty]
  rfl

/-- While the process goes on with its save the file is not read. -/
theorem restored_wrote (h : s.Sound library format path max) {worker : AgentWorker Message Byte}
    (hworker : s.workers x.1 = some worker) {last : Bool} {text : List Byte} {offset n : Nat}
    (hturn : worker.turn = .writing last text offset) (hlt : offset + n < text.length) :
    (loadHistory format (Function.update s.files path
      (some (overlay ((s.files path).getD []) offset ((text.drop offset).take n)))) path).getD [] =
      [] := by
  obtain ⟨_, _, htext, hoffset, hfile⟩ := h.writing _ worker hworker last text offset hturn
  have hcut : format.fromStr (text.take (offset + n)) = none := by
    rw [htext] at hlt ⊢
    exact format.fromStr_take _ hlt
  rw [loadHistory_update, hfile, Option.getD_some, overlay_take hoffset.le, hcut]
  rfl

theorem Sessions.Covered.moves (h : s.Covered library format path)
    (hs : s.Sound library format path none) (hfresh : s.SavesFresh x)
    (hm : s.Moves library format path none x s') : s'.Covered library format path := by
  -- a file that has been emptied has all of nothing
  have hempty : s.answered.length = 0 → ∀ l : List Message, s.answered.flatten.Sublist l := by
    intro hzero l
    rw [List.length_eq_zero_iff.mp hzero]
    exact List.nil_sublist l
  cases hm with
  | nothing => exact h
  | started _ _ _ _ _ worker _ _ hhistory =>
    refine ⟨h.file, fun p w hw hp => ?_⟩
    by_cases heq : p = x.1
    · subst heq
      have hmark := hp.1
      simp only [Function.update_self, Option.some.injEq] at hw hmark
      rw [← hw, hhistory]
      exact h.file hmark
    · simp only [Sessions.Fresh, Function.update_of_ne heq] at hw hp
      exact h.fresh p w hw hp
  | talked _ _ worker hworker _ worker' _ _ hhistory added hadded =>
    rcases hadded with rfl | ⟨hagent, rfl, _⟩
    · rw [List.append_nil]
      refine ⟨h.file, workers_update (fun q w _ => h.fresh q w) ?_⟩
      intro w hw hp
      cases hw
      rw [hhistory]
      exact (h.fresh _ worker hworker hp).trans (List.sublist_append_left ..)
    · refine ⟨fun hsaved => ?_, fun p w hw hp => ?_⟩
      · have hle := hs.saved
        simp only [List.length_append, List.length_singleton] at hsaved
        omega
      · obtain ⟨hmark, hp⟩ := hp
        -- a job's worker has not loaded the file since
        have hpagent : p = .agent := by
          rcases hp with hp | hp
          · exact hp
          · have hle := (hs.marks p).2
            simp only [List.length_append, List.length_singleton] at hp
            omega
        rw [hpagent, ← hagent] at hw hmark
        simp only [Function.update_self, Option.some.injEq] at hw
        rw [← hw, hhistory, List.flatten_append, List.flatten_singleton]
        exact (h.fresh _ worker hworker ⟨hmark, Or.inl hagent⟩).append (List.Sublist.refl _)
  | opened _ _ _ worker hworker last =>
    refine ⟨fun hsaved => hempty hsaved.symm _, workers_update (fun q w _ => h.fresh q w) ?_⟩
    intro w hw hp
    cases hw
    exact h.fresh _ worker hworker hp
  | wrote _ _ _ worker hworker last text offset n hturn =>
    refine ⟨fun hsaved => hempty ?_ _, workers_update (fun q w _ => h.fresh q w) ?_⟩
    · exact hsaved.symm.trans (hs.writing _ worker hworker last text offset hturn).2.1
    · intro w hw hp
      cases hw
      exact h.fresh _ worker hworker hp
  | completed hyes _ _ worker hworker last text offset n hturn hle =>
    -- the worker is fresh, so its history has everything that the file is to have
    have hall := h.fresh _ worker hworker (hfresh.1 hyes)
    refine ⟨fun _ => ?_, workers_update (fun q w _ => h.fresh q w) ?_⟩
    · rw [Sessions.restored, restored_completed hs hworker hturn hle]
      exact hall
    · intro w hw _
      rw [AgentWorker.mem_next w hw]
      exact hall
  | left _ _ _ worker hworker after hafter =>
    refine ⟨h.file, workers_update (fun q w _ => h.fresh q w) ?_⟩
    intro w hw hp
    rw [hafter w hw]
    exact h.fresh _ worker hworker hp

end

/-! ## What stale processes lose -/

section
variable {Message Byte : Type} {library : AgentLibrary Message}
  {format : SessionFormat Message Byte} {s : Sessions Message Byte} {path : PathBuf}

/-- Where no message occurs twice, nobody has what it misses. -/
structure Sessions.Apart (library : AgentLibrary Message) (format : SessionFormat Message Byte)
    (path : PathBuf) (seen : List Message) (s : Sessions Message Byte) : Prop where
  seenFile : s.restored format path ⊆ seen
  seenAnswered : s.answered.flatten ⊆ seen
  seenHistory : ∀ p worker, s.workers p = some worker → worker.history library ⊆ seen
  nonempty : ∀ messages ∈ s.answered, messages ≠ []
  file : ∀ i messages, s.answered[i]? = some messages → s.saved ≤ i →
    ∀ m ∈ messages, m ∉ s.restored format path
  history : ∀ p worker, s.workers p = some worker → ∀ i messages,
    s.answered[i]? = some messages → (s.marks p).Misses p i →
      ∀ m ∈ messages, m ∉ worker.history library

theorem Sessions.apart_initial (files : PathBuf → Option (List Byte)) :
    (Sessions.initial files).Apart library format path
      ((loadHistory format files path).getD []) :=
  ⟨List.Subset.refl _, List.nil_subset _, nofun, nofun, nofun, nofun⟩

theorem Sessions.Apart.mono {seen seen' : List Message} (h : s.Apart library format path seen)
    (hsub : seen ⊆ seen') : s.Apart library format path seen' :=
  ⟨List.Subset.trans h.seenFile hsub, List.Subset.trans h.seenAnswered hsub,
    fun p w hw => List.Subset.trans (h.seenHistory p w hw) hsub, h.nonempty, h.file, h.history⟩

/-- A process that starts has what is in the file, and misses what is not saved. -/
theorem Sessions.Apart.started {seen : List Message} (h : s.Apart library format path seen)
    {p : Process} {worker : AgentWorker Message Byte}
    (hstart : worker.history library = s.restored format path) :
    Sessions.Apart library format path seen
      { s with
        workers := Function.update s.workers p (some worker)
        marks := Function.update s.marks p ⟨s.answered.length, s.saved⟩ } := by
  refine ⟨h.seenFile, h.seenAnswered, workers_update (fun q w _ => h.seenHistory q w) ?_,
    h.nonempty, h.file, ?_⟩
  · intro w hw
    cases hw
    rw [hstart]
    exact h.seenFile
  · intro q w hw i messages hget hmisses
    by_cases heq : q = p
    · subst heq
      simp only [Function.update_self, Option.some.injEq] at hw hmisses
      rw [← hw, hstart]
      have hlt := (List.getElem?_eq_some_iff.mp hget).1
      rcases hmisses with hmisses | hmisses
      · exact h.file i messages hget hmisses.1
      · exact absurd hlt (Nat.not_lt.mpr hmisses.2)
    · simp only [Function.update_of_ne heq] at hw hmisses
      exact h.history q w hw i messages hget hmisses

/-- What has been answered before is not said again. -/
theorem Sessions.Apart.talked {seen : List Message} (h : s.Apart library format path seen)
    {p : Process} {worker worker' : AgentWorker Message Byte} (hworker : s.workers p = some worker)
    {messages : List Message}
    (hhistory : worker'.history library = worker.history library ++ messages)
    (hnew : ∀ m ∈ messages, m ∉ seen) :
    Sessions.Apart library format path (seen ++ messages)
      { s with workers := Function.update s.workers p (some worker') } := by
  have h' := h.mono (List.subset_append_left seen messages)
  refine ⟨h'.seenFile, h'.seenAnswered, workers_update (fun q w _ => h'.seenHistory q w) ?_,
    h.nonempty, h.file, workers_update (fun q w _ => h.history q w) ?_⟩
  · intro w hw
    cases hw
    rw [hhistory]
    exact List.append_subset.mpr ⟨h'.seenHistory p worker hworker, List.subset_append_right ..⟩
  · intro w hw i answer hget hmisses m hm
    cases hw
    rw [hhistory]
    refine List.not_mem_append (h.history p worker hworker i answer hget hmisses m hm) ?_
    intro hin
    have hmem : m ∈ s.answered.flatten :=
      List.mem_flatten_of_mem (List.mem_of_getElem? hget) hm
    exact hnew m hin (h.seenAnswered hmem)

/-- An exchange is answered that neither the file nor the worker of a job has. -/
theorem Sessions.Apart.answered {seen : List Message} (h : s.Apart library format path seen)
    (hmarks : ∀ p, (s.marks p).answered ≤ s.answered.length)
    {messages : List Message} (hnonempty : messages ≠ []) (hseen : messages ⊆ seen)
    (hfile : ∀ m ∈ messages, m ∉ s.restored format path)
    (hjobs : ∀ p worker, s.workers p = some worker → p ≠ .agent →
      ∀ m ∈ messages, m ∉ worker.history library) :
    Sessions.Apart library format path seen { s with answered := s.answered ++ [messages] } := by
  have hcases : ∀ i answer, (s.answered ++ [messages])[i]? = some answer →
      s.answered[i]? = some answer ∨ i = s.answered.length ∧ answer = messages := by
    intro i answer hget
    rw [List.getElem?_append] at hget
    split at hget
    · exact Or.inl hget
    · rw [List.getElem?_singleton] at hget
      split at hget
      · exact Or.inr ⟨by omega, (Option.some.inj hget).symm⟩
      · cases hget
  refine ⟨h.seenFile, ?_, h.seenHistory, ?_, ?_, ?_⟩
  · rw [List.flatten_append, List.flatten_singleton]
    exact List.append_subset.mpr ⟨h.seenAnswered, hseen⟩
  · intro answer hmem
    rcases List.mem_append.mp hmem with hmem | hmem
    · exact h.nonempty answer hmem
    · rw [List.mem_singleton.mp hmem]
      exact hnonempty
  · intro i answer hget hle
    rcases hcases i answer hget with hget | ⟨_, rfl⟩
    · exact h.file i answer hget hle
    · exact hfile
  · intro p w hw i answer hget hmisses
    rcases hcases i answer hget with hget | ⟨rfl, rfl⟩
    · exact h.history p w hw i answer hget hmisses
    · -- only a job's worker can miss the new exchange
      refine hjobs p w hw ?_
      rcases hmisses with hmisses | hmisses
      · exact absurd (hmarks p) (Nat.not_le.mpr hmisses.2)
      · exact hmisses.1

/-- The worker goes on with its history, and nothing can be read in the file. -/
theorem Sessions.Apart.emptied {seen : List Message} (h : s.Apart library format path seen)
    {p : Process} {worker : AgentWorker Message Byte} (hworker : s.workers p = some worker)
    (turn : Turn Byte) {files : PathBuf → Option (List Byte)}
    (hfiles : (loadHistory format files path).getD [] = []) (saved : Nat)
    (writer : Option Process) :
    Sessions.Apart library format path seen
      { s with
        files := files
        workers := Function.update s.workers p (some { worker with turn := turn })
        saved := saved
        writer := writer } := by
  refine ⟨?_, h.seenAnswered, workers_update (fun q w _ => h.seenHistory q w) ?_, h.nonempty, ?_,
    workers_update (fun q w _ => h.history q w) ?_⟩
  · rw [Sessions.restored, hfiles]
    exact List.nil_subset seen
  · intro w hw
    cases hw
    exact h.seenHistory p worker hworker
  · intro i messages _ _ m _
    rw [Sessions.restored, hfiles]
    exact List.not_mem_nil
  · intro w hw
    cases hw
    exact h.history p worker hworker

/-- The save of the worker is over, and it goes on with its history or ends. -/
theorem Sessions.Apart.release {seen : List Message} (h : s.Apart library format path seen)
    {p : Process} {worker : AgentWorker Message Byte} (hworker : s.workers p = some worker)
    {after : Option (AgentWorker Message Byte)}
    (hafter : ∀ w ∈ after, w = { worker with turn := .free }) :
    (s.release p after).Apart library format path seen := by
  refine ⟨h.seenFile, h.seenAnswered, workers_update (fun q w _ => h.seenHistory q w) ?_,
    h.nonempty, h.file, workers_update (fun q w _ => h.history q w) ?_⟩
  · intro w hw
    rw [hafter w hw]
    exact h.seenHistory p worker hworker
  · intro w hw
    rw [hafter w hw]
    exact h.history p worker hworker

/-- The file has what the worker had in its history. -/
theorem Sessions.Apart.saved {seen : List Message} (h : s.Apart library format path seen)
    {history : List Message} (hhistory : history ⊆ seen) {files : PathBuf → Option (List Byte)}
    (hfiles : (loadHistory format files path).getD [] = history) :
    Sessions.Apart library format path seen
      { s with files := files, saved := s.answered.length } := by
  refine ⟨?_, h.seenAnswered, h.seenHistory, h.nonempty, ?_, h.history⟩
  · rw [Sessions.restored, hfiles]
    exact hhistory
  · intro i messages hget hle
    exact absurd (List.getElem?_eq_some_iff.mp hget).1 (Nat.not_lt.mpr hle)

end

section
variable {Message Byte : Type} [Inhabited Byte] {library : AgentLibrary Message}
  {format : SessionFormat Message Byte} {s s' : Sessions Message Byte}
  {x : Process × WorkerInput} {path : PathBuf}

/-- The messages of an input are new, and an exchange has messages. -/
structure Unheard (library : AgentLibrary Message) (seen : List Message)
    (s : Sessions Message Byte) (x : Process × WorkerInput) : Prop where
  new : ∀ m ∈ s.messages library x, m ∉ seen
  nonempty : s.answers x = true → s.messages library x ≠ []

/-- A save that a stale process completes loses an exchange, and so does one that is cut short
with an answer unsaved. -/
theorem Sessions.Apart.lost {seen : List Message} (h : s.Apart library format path seen)
    (hs : s.Sound library format path none) (hends : s.ends x = true)
    (hstale : ¬ s.SavesFresh x) (hm : s.Moves library format path none x s') :
    ¬ s'.answered.flatten.Sublist (s'.restored format path) := by
  have hno : ¬ s.ends x = false := ne_of_eq_of_ne hends Bool.noConfusion
  -- an exchange of which the file has nothing
  have hmissing : ∀ {i : Nat} (hi : i < s.answered.length) {l : List Message},
      (∀ m ∈ s.answered[i], m ∉ l) → ¬ s.answered.flatten.Sublist l := by
    intro i hi l hnone hsub
    obtain ⟨m, hm⟩ := List.exists_mem_of_ne_nil _ (h.nonempty _ (List.getElem_mem hi))
    exact hnone m hm (hsub.subset (List.mem_flatten_of_mem (List.getElem_mem hi) hm))
  cases hm with
  | completed hyes _ _ worker hworker last text offset n hturn hle =>
    have hstale : ¬ s.Fresh x.1 := by
      refine fun hfresh => hstale ⟨fun _ => hfresh, fun hbreaks => ?_⟩
      rw [breaks_of_completes hyes] at hbreaks
      cases hbreaks
    obtain ⟨i, hi, hmisses⟩ := exists_misses hs hstale
    refine hmissing hi ?_
    rw [Sessions.restored, restored_completed hs hworker hturn hle]
    exact h.history _ worker hworker i _ (List.getElem?_eq_getElem hi) hmisses
  | left hcompletes _ _ worker hworker after hafter =>
    have hunsaved : s.saved ≠ s.answered.length := by
      refine fun hsaved => hstale ⟨fun hyes => ?_, fun _ => hsaved⟩
      rw [hcompletes] at hyes
      cases hyes
    have hlt : s.saved < s.answered.length := lt_of_le_of_ne hs.saved hunsaved
    exact hmissing hlt (h.file s.saved _ (List.getElem?_eq_getElem hlt) (Nat.le_refl _))
  | nothing hyes => exact absurd hyes hno
  | started hyes => exact absurd hyes hno
  | talked hyes => exact absurd hyes hno
  | opened hyes => exact absurd hyes hno
  | wrote hyes => exact absurd hyes hno

theorem Sessions.Apart.moves {seen : List Message} (h : s.Apart library format path seen)
    (hs : s.Sound library format path none) (hx : Unheard library seen s x)
    (hm : s.Moves library format path none x s') :
    s'.Apart library format path (seen ++ s.messages library x) := by
  have hsub : seen ⊆ seen ++ s.messages library x := List.subset_append_left ..
  cases hm with
  | nothing => exact h.mono hsub
  | started _ _ _ _ _ worker _ _ hstart => exact (h.started hstart).mono hsub
  | talked _ _ worker hworker _ worker' _ _ hhistory added hadded =>
    have htalked := h.talked hworker hhistory hx.new
    rcases hadded with rfl | ⟨hagent, rfl, hanswers⟩
    · rw [List.append_nil]
      exact htalked
    · refine htalked.answered (fun p => (hs.marks p).2) (hx.nonempty hanswers)
        (List.subset_append_right ..) ?_ ?_
      · exact fun m hm hin => hx.new m hm (h.seenFile hin)
      · intro p w hw hp
        rw [← hagent] at hp
        simp only [Function.update_of_ne hp] at hw
        exact fun m hm hin => hx.new m hm (h.seenHistory p w hw hin)
  | opened _ _ _ worker hworker last =>
    exact (h.emptied hworker _ (restored_opened s.files) 0 (some x.1)).mono hsub
  | wrote _ _ _ worker hworker last text offset n hturn hlt =>
    exact (h.emptied hworker _ (restored_wrote hs hworker hturn hlt) s.saved s.writer).mono hsub
  | completed _ _ _ worker hworker last text offset n hturn hle =>
    have hreleased : (s.release x.1 (worker.next last)).Apart library format path seen :=
      h.release hworker AgentWorker.mem_next
    exact (hreleased.saved (h.seenHistory _ worker hworker)
      (restored_completed hs hworker hturn hle)).mono hsub
  | left _ _ _ worker hworker after hafter => exact (h.release hworker hafter).mono hsub

end

/-! ## Runs -/

section
variable {Message Byte : Type} [Inhabited Byte] {library : AgentLibrary Message}
  {format : SessionFormat Message Byte} {home : Option PathBuf} {config : Config}
  {profile : String} {agentConfig : AgentConfig} {s s' : Sessions Message Byte}
  {x : Process × WorkerInput} {path : PathBuf}

/-- After a save nothing is unsaved, if nothing was when it was cut short. -/
theorem saved_of_ends (hends : s.ends x = true) (hfresh : s.SavesFresh x)
    {max : Option Nat} (hm : s.Moves library format path max x s') :
    s'.saved = s'.answered.length := by
  have hno : ¬ s.ends x = false := ne_of_eq_of_ne hends Bool.noConfusion
  cases hm with
  | completed => rfl
  | left hcompletes =>
    rw [Sessions.ends, hcompletes, Bool.false_or] at hends
    exact hfresh.2 hends
  | nothing hyes => exact absurd hyes hno
  | started hyes => exact absurd hyes hno
  | talked hyes => exact absurd hyes hno
  | opened hyes => exact absurd hyes hno
  | wrote hyes => exact absurd hyes hno

variable (library format home config profile)

/-- After each save, whoever makes it and however it ends, the file has every exchange that
the agent has answered by then. -/
def Sessions.KeptThroughout (s : Sessions Message Byte) (is : List (Process × WorkerInput)) :
    Prop :=
  ∀ pre x, pre ++ [x] <+: is →
    (run (Sessions.step library format home config profile) s pre).ends x = true →
    (run (Sessions.step library format home config profile) s (pre ++ [x])).Kept library format home
      config profile

/-- What is said in a run. -/
def Sessions.heard (s : Sessions Message Byte) : List (Process × WorkerInput) → List Message
  | [] => []
  | x :: is => s.messages library x ++ heard (s.step library format home config profile x) is

/-- The agent answers with messages. -/
def Sessions.AnswersInWords (s : Sessions Message Byte) (x : Process × WorkerInput) : Prop :=
  s.answers x = true → s.messages library x ≠ []

/-- No message occurs twice, and every exchange has messages. -/
def NothingTwice (files : PathBuf → Option (List Byte)) (is : List (Process × WorkerInput)) :
    Prop :=
  ((loadHistory format files (sessionFile home config profile)).getD [] ++
      Sessions.heard library format home config profile (.initial files) is).Nodup ∧
    Meets (Sessions.step library format home config profile) (Sessions.AnswersInWords library)
      (.initial files) is

/-- No two processes save at once, and only fresh ones save. -/
def Sessions.AloneAndFresh (s : Sessions Message Byte) (x : Process × WorkerInput) : Prop :=
  s.Alone x ∧ s.SavesFresh x

instance (s : Sessions Message Byte) (x : Process × WorkerInput) : Decidable (s.AloneAndFresh x) :=
  inferInstanceAs (Decidable (_ ∧ _))

variable {library format home config profile}

theorem keptThroughout_cons {is : List (Process × WorkerInput)} :
    s.KeptThroughout library format home config profile (x :: is) ↔
      (s.ends x = true →
        (s.step library format home config profile x).Kept library format home config profile) ∧
      (s.step library format home config profile x).KeptThroughout library format home config
        profile is := by
  constructor
  · intro h
    refine ⟨h [] x (List.prefix_append [x] is), fun pre y hpre => ?_⟩
    exact h (x :: pre) y ((List.prefix_cons_inj x).mpr hpre)
  · intro h pre y hpre
    cases pre with
    | nil =>
      obtain ⟨rfl, _⟩ := List.cons_prefix_cons.mp hpre
      exact h.1
    | cons z pre =>
      obtain ⟨rfl, hrest⟩ := List.cons_prefix_cons.mp hpre
      exact h.2 pre y hrest

variable (hlib : library.Remembering)
  (hagent : firstNamed config.agents profile = some agentConfig)
  (hpersist : agentConfig.sessionPersist = true) (hmax : agentConfig.maxHistory = none)
include hlib hagent hpersist hmax

theorem moves_of_sound (hs : s.Sound library format (sessionFile home config profile) none)
    (x : Process × WorkerInput) :
    s.Moves library format (sessionFile home config profile) none x
      (s.step library format home config profile x) := by
  rw [← hmax] at hs ⊢
  exact Sessions.step_moves hlib hagent hpersist rfl hs.workers x

theorem keptThroughout_of_fresh (is : List (Process × WorkerInput)) :
    ∀ s : Sessions Message Byte,
      s.Sound library format (sessionFile home config profile) none →
      s.Covered library format (sessionFile home config profile) →
      Meets (Sessions.step library format home config profile) Sessions.AloneAndFresh s is →
        s.KeptThroughout library format home config profile is := by
  induction is with
  | nil =>
    intro s _ _ _ pre x hpre
    simp at hpre
  | cons x is ih =>
    intro s hs hc h
    obtain ⟨⟨halone, hfresh⟩, hrest⟩ := h
    have hm := moves_of_sound hlib hagent hpersist hmax hs x
    have hc' := hc.moves hs hfresh hm
    refine keptThroughout_cons.mpr ⟨fun hends => ?_, ih _ (hs.moves halone hm) hc' hrest⟩
    exact (kept_iff hlib hagent hpersist).mpr (hc'.file (saved_of_ends hends hfresh hm))

theorem fresh_of_keptThroughout (is : List (Process × WorkerInput)) :
    ∀ (s : Sessions Message Byte) (seen : List Message),
      s.Sound library format (sessionFile home config profile) none →
      s.Apart library format (sessionFile home config profile) seen →
      (seen ++ s.heard library format home config profile is).Nodup →
      Meets (Sessions.step library format home config profile) (Sessions.AnswersInWords library)
        s is →
      Meets (Sessions.step library format home config profile) Sessions.Alone s is →
      s.KeptThroughout library format home config profile is →
        Meets (Sessions.step library format home config profile) Sessions.SavesFresh s is := by
  induction is with
  | nil => exact fun _ _ _ _ _ _ _ _ => True.intro
  | cons x is ih =>
    intro s seen hs ha hnd hwords halone h
    obtain ⟨hkept, hrest⟩ := keptThroughout_cons.mp h
    have hm := moves_of_sound hlib hagent hpersist hmax hs x
    rw [Sessions.heard, ← List.append_assoc] at hnd
    have hx : Unheard library seen s x := by
      refine ⟨fun m hmem hseen => ?_, hwords.1⟩
      exact List.disjoint_of_nodup_append (List.nodup_append.mp hnd).1 hseen hmem
    refine ⟨?_, ih _ _ (hs.moves halone.1 hm) (ha.moves hs hx hm) hnd hwords.2 halone.2 hrest⟩
    -- a save that is not fresh loses an exchange, so the file is not what it should be
    by_contra hstale
    have hends : s.ends x = true := by
      by_contra hno
      obtain ⟨hcompletes, hbreaks⟩ := Bool.or_eq_false_iff.mp (Bool.eq_false_of_not_eq_true hno)
      exact hstale ⟨fun h => absurd h (ne_of_eq_of_ne hcompletes Bool.noConfusion),
        fun h => absurd h (ne_of_eq_of_ne hbreaks Bool.noConfusion)⟩
    exact ha.lost hs hends hstale hm ((kept_iff hlib hagent hpersist).mp (hkept hends))

end

/-! ## Two runs -/

/-- A text of messages with a mark at its end. -/
def plainFromStr : List (Option String) → Option (List String)
  | [] => none
  | [none] => some []
  | none :: _ => none
  | some message :: rest => (plainFromStr rest).map (message :: ·)

theorem plainFromStr_text (history : List String) :
    plainFromStr (history.map some ++ [none]) = some history := by
  induction history with
  | nil => rfl
  | cons m rest ih =>
    rw [List.map_cons, List.cons_append, plainFromStr, ih]
    rfl

theorem plainFromStr_cut (history : List String) :
    ∀ cut, cut <+: history.map some ++ [none] → cut ≠ history.map some ++ [none] →
      plainFromStr cut = none := by
  induction history with
  | nil =>
    intro cut hcut hne
    cases cut with
    | nil => rfl
    | cons b rest =>
      obtain ⟨rfl, hrest⟩ := List.cons_prefix_cons.mp hcut
      rw [List.prefix_nil.mp hrest] at hne
      exact absurd rfl hne
  | cons m history ih =>
    intro cut hcut hne
    cases cut with
    | nil => rfl
    | cons b rest =>
      obtain ⟨rfl, hrest⟩ := List.cons_prefix_cons.mp hcut
      have hnone := ih rest hrest (fun heq => hne (by rw [heq]; rfl))
      rw [plainFromStr, hnone]
      rfl

def plainFormat : SessionFormat String (Option String) where
  toStringPretty := fun history => history.map some ++ [none]
  fromStr := plainFromStr
  fromStr_toStringPretty := plainFromStr_text
  fromStr_nil := rfl
  fromStr_cut := plainFromStr_cut

/-- An agent that notes what it is told and what it replies. -/
def plainLibrary : AgentLibrary String where
  history := fun restored chats =>
    restored.getD [] ++ chats.flatMap fun chat => chat.1 :: chat.2.toOption.toList

theorem plainLibrary_remembering : plainLibrary.Remembering where
  new := rfl
  withHistory := fun saved => List.append_nil saved
  chat := fun restored chats message result => by
    unfold plainLibrary
    dsimp only
    rw [List.flatMap_append, ← List.append_assoc]
    exact List.prefix_append ..

/-- A save in two pieces. -/
def savesOf (p : Process) : List (Process × WorkerInput) :=
  [(p, .create true), (p, .write 2), (p, .write 9)]

/-- The worker of a job comes and goes while the agent has nothing to do. -/
def inTurn : List (Process × WorkerInput) :=
  [(.agent, .start), (.agent, .chat "question" (.ok "answer"))] ++ savesOf .agent ++
    [(.job 0, .start), (.job 0, .chat "setup" (.ok "ready"))] ++ savesOf (.job 0) ++
      [(.job 0, .stop)] ++ savesOf (.job 0) ++ [(.agent, .exit)]

/-- The worker of a job has started before the agent answers. -/
def outOfTurn : List (Process × WorkerInput) :=
  [(.agent, .start), (.job 0, .start), (.agent, .chat "question" (.ok "answer"))] ++
    savesOf .agent ++ [(.job 0, .chat "setup" (.ok "ready"))] ++ savesOf (.job 0)

end ZeptoPM
