import ZeptoPM.Sessions

/- Sessions with a bound on their length. A worker saves no more than the most recent
   messages of its history, and the worker after it begins with what was saved. As long as
   the workers of a profile take turns, whatever number of them there have been and however
   their saves have gone, the file has the most recent messages of all that was said and
   saved, neither more than the bound nor less than the even number below it
   (`sessions_windowed`). A save that is cut short takes with it what was said before. -/
namespace ZeptoPM

/-! ## Windows of a history -/

/-- How many of `n` messages are left at least. -/
def leastKept (n : Nat) : Option Nat → Nat
  | none => n
  | some max => min n (max - max % 2)

/-- The window has the most recent messages of the history, and enough of them. -/
structure Recent {α : Type} (max : Option Nat) (history window : List α) : Prop where
  suffix : window <:+ history
  least : leastKept history.length max ≤ window.length

/-- The list is no longer than allowed. -/
def Bounded {α : Type} (max : Option Nat) (l : List α) : Prop := ∀ m ∈ max, l.length ≤ m

namespace Recent
variable {α : Type} {max : Option Nat} {history window : List α}

theorem refl (max : Option Nat) (l : List α) : Recent max l l := by
  refine ⟨List.suffix_refl l, ?_⟩
  cases max with
  | none => exact Nat.le_refl _
  | some m => exact Nat.min_le_left ..

/-- What is added to a history is added to its window. -/
theorem append (h : Recent max history window) (new : List α) :
    Recent max (history ++ new) (window ++ new) := by
  obtain ⟨older, hold⟩ := h.suffix
  refine ⟨⟨older, by rw [← hold, List.append_assoc]⟩, ?_⟩
  rw [List.length_append, List.length_append]
  cases max with
  | none => exact Nat.add_le_add_right h.least _
  | some m =>
    have hleast : min history.length (m - m % 2) ≤ window.length := h.least
    show min (history.length + new.length) (m - m % 2) ≤ _
    omega

/-- A window of a window. -/
theorem truncate (h : Recent max history window) :
    Recent max history (truncateHistory window max) ∧ Bounded max (truncateHistory window max) := by
  cases max with
  | none => exact ⟨h, nofun⟩
  | some m =>
    have hleast : min history.length (m - m % 2) ≤ window.length := h.least
    unfold truncateHistory
    dsimp only
    split
    · rename_i hle
      refine ⟨h, ?_⟩
      intro m' hm'
      cases hm'
      exact hle
    · rename_i hlong
      split
      · rename_i hzero
        refine ⟨⟨List.nil_suffix, ?_⟩, ?_⟩
        · show min history.length (m - m % 2) ≤ 0
          rw [hzero, Nat.min_zero]
        · intro m' _
          exact Nat.zero_le m'
      · have hlen : (window.drop (window.length - (m - m % 2))).length = m - m % 2 := by
          rw [List.length_drop]
          omega
        refine ⟨⟨(List.drop_suffix ..).trans h.suffix, ?_⟩, ?_⟩
        · rw [hlen]
          exact Nat.min_le_right ..
        · intro m' hm'
          cases hm'
          rw [hlen]
          exact Nat.sub_le ..

/-- With an even bound the window is exactly as long as that allows. -/
theorem eq_drop {m : Nat} (h : Recent (some m) history window) (hm : m % 2 = 0)
    (hbound : Bounded (some m) window) : window = history.drop (history.length - m) := by
  have hleast : min history.length (m - m % 2) ≤ window.length := h.least
  have hmost : window.length ≤ m := hbound m rfl
  have hle := h.suffix.length_le
  rw [List.suffix_iff_eq_drop.mp h.suffix]
  congr 1
  omega

end Recent

theorem bounded_nil {α : Type} (max : Option Nat) : Bounded max ([] : List α) :=
  fun m _ => Nat.zero_le m

/-! ## What is said -/

/-- What has been said in a profile's sessions. -/
structure Conversation (Message : Type) where
  /-- What a worker knew when it completed a save, and nothing when the file has been emptied
  for another save that is not complete. -/
  kept : List Message
  /-- What the worker that runs knows beyond that. -/
  unsaved : List Message
  running : Option Process
  /-- A save has been completed. -/
  saved : Bool

/-- The process has a worker after its input, or none. What has not been saved goes with it. -/
def Conversation.settled {Message : Type} (c : Conversation Message) (p : Process)
    (runs : Bool) : Conversation Message :=
  if runs then { c with running := some p }
  else if c.running = some p then { c with unsaved := [], running := none }
  else c

section
variable {Message Byte : Type} (library : AgentLibrary Message)
  (format : SessionFormat Message Byte) (home : Option PathBuf) (config : Config)
  (profile : String)

/-- What an input adds to the conversation. -/
def Sessions.noted (s : Sessions Message Byte) (c : Conversation Message)
    (x : Process × WorkerInput) : Conversation Message :=
  if s.opens x then { c with kept := [], unsaved := c.kept ++ c.unsaved }
  else if s.completes x then
    { c with kept := c.kept ++ c.unsaved, unsaved := [], saved := true }
  else { c with unsaved := c.unsaved ++ s.messages library x }

def Sessions.talk [Inhabited Byte] (t : Sessions Message Byte × Conversation Message)
    (x : Process × WorkerInput) : Sessions Message Byte × Conversation Message :=
  let s' := t.1.step library format home config profile x
  (s', (t.1.noted library t.2 x).settled x.1 (s'.workers x.1).isSome)

/-- A worker starts when the one before it has ended. -/
def InTurn (t : Sessions Message Byte × Conversation Message) (x : Process × WorkerInput) : Prop :=
  x.2 = .start → t.2.running = none

instance (t : Sessions Message Byte × Conversation Message) (x : Process × WorkerInput) :
    Decidable (InTurn t x) :=
  inferInstanceAs (Decidable (_ → _))

/-- Before the first worker starts there is what the file has. -/
def Sessions.silent (files : PathBuf → Option (List Byte)) :
    Sessions Message Byte × Conversation Message :=
  (.initial files,
    ⟨(loadHistory format files (sessionFile home config profile)).getD [], [], none, false⟩)

/-- The file has the most recent of all that was kept, and so has the worker that runs of all
that was said. -/
structure Sessions.Windowed (path : PathBuf) (max : Option Nat)
    (t : Sessions Message Byte × Conversation Message) : Prop where
  file : Recent max t.2.kept (t.1.restored format path)
  bounded : t.2.saved = true → Bounded max (t.1.restored format path)
  exact : ∀ m, max = some m → m % 2 = 0 → t.2.saved = true →
    t.1.restored format path = t.2.kept.drop (t.2.kept.length - m)
  worker : ∀ p worker, t.1.workers p = some worker →
    Recent max (t.2.kept ++ t.2.unsaved) (worker.history library)

/-- What holds of the workers, the file and the conversation at every input. -/
structure Sessions.Remembers (path : PathBuf) (max : Option Nat)
    (s : Sessions Message Byte) (c : Conversation Message) : Prop where
  alone : ∀ p worker, s.workers p = some worker → c.running = some p
  file : Recent max c.kept (s.restored format path)
  bounded : c.saved = true → Bounded max (s.restored format path)
  worker : ∀ p worker, s.workers p = some worker →
    Recent max (c.kept ++ c.unsaved) (worker.history library)
  idle : c.running = none → c.unsaved = []

end

section
variable {Message Byte : Type} {library : AgentLibrary Message}
  {format : SessionFormat Message Byte} {path : PathBuf} {max : Option Nat}
  {s : Sessions Message Byte} {c : Conversation Message} {x : Process × WorkerInput}

theorem Conversation.settled_some {p : Process} {worker : AgentWorker Message Byte}
    (workers : Process → Option (AgentWorker Message Byte)) :
    c.settled p (Function.update workers p (some worker) p).isSome =
      { c with running := some p } := by
  rw [Function.update_self]
  rfl

namespace Sessions.Remembers

/-- Whoever has a worker after an input of a process that runs is that process. -/
theorem only (h : Remembers library format path max s c) {p : Process}
    (hruns : c.running = some p) {after : Option (AgentWorker Message Byte)} {q : Process}
    {w : AgentWorker Message Byte} (hq : Function.update s.workers p after q = some w) :
    q = p ∧ after = some w := by
  by_cases hp : q = p
  · subst hp
    rw [Function.update_self] at hq
    exact ⟨rfl, hq⟩
  · rw [Function.update_of_ne hp] at hq
    have hother := h.alone q w hq
    rw [hruns] at hother
    exact absurd (Option.some.inj hother).symm hp

/-- The worker goes on after an input. -/
theorem goesOn (h : Remembers library format path max s c) {p : Process}
    (hruns : c.running = some p) {worker : AgentWorker Message Byte} {s' : Sessions Message Byte}
    {c' : Conversation Message}
    (hworkers : s'.workers = Function.update s.workers p (some worker))
    (hfile : Recent max c'.kept (s'.restored format path))
    (hbounded : c'.saved = true → Bounded max (s'.restored format path))
    (hhistory : Recent max (c'.kept ++ c'.unsaved) (worker.history library)) :
    Remembers library format path max s' (c'.settled p (s'.workers p).isSome) := by
  rw [hworkers, Conversation.settled_some]
  refine ⟨fun q w hw => ?_, hfile, hbounded, fun q w hw => ?_, nofun⟩
  · rw [hworkers] at hw
    rw [(h.only hruns hw).1]
  · rw [hworkers] at hw
    obtain ⟨_, hw⟩ := h.only hruns hw
    cases hw
    exact hhistory

/-- The worker ends after an input. -/
theorem ends (h : Remembers library format path max s c) {p : Process}
    (hruns : c.running = some p) {s' : Sessions Message Byte} {c' : Conversation Message}
    (hruns' : c'.running = some p) (hworkers : s'.workers = Function.update s.workers p none)
    (hfile : Recent max c'.kept (s'.restored format path))
    (hbounded : c'.saved = true → Bounded max (s'.restored format path)) :
    Remembers library format path max s' (c'.settled p (s'.workers p).isSome) := by
  have hnone : ∀ q w, s'.workers q ≠ some w := by
    intro q w hw
    rw [hworkers] at hw
    cases (h.only hruns hw).2
  have hsettled : c'.settled p (s'.workers p).isSome =
      { c' with unsaved := [], running := none } := by
    rw [hworkers, Function.update_self]
    unfold Conversation.settled
    rw [Option.isSome_none, if_neg Bool.false_ne_true, if_pos hruns']
  rw [hsettled]
  exact ⟨fun q w hw => absurd hw (hnone q w), hfile, hbounded,
    fun q w hw => absurd hw (hnone q w), fun _ => rfl⟩

/-- Nothing happens to the process. -/
theorem stays (h : Remembers library format path max s c) (p : Process) :
    Remembers library format path max s (c.settled p (s.workers p).isSome) := by
  cases hworker : s.workers p with
  | some w =>
    rw [Option.isSome_some]
    unfold Conversation.settled
    rw [if_pos rfl, ← h.alone p w hworker]
    exact h
  | none =>
    rw [Option.isSome_none]
    unfold Conversation.settled
    rw [if_neg Bool.false_ne_true]
    split
    · rename_i hruns
      have hnone : ∀ q w, s.workers q ≠ some w := by
        intro q w hw
        have hsame := hruns.symm.trans (h.alone q w hw)
        rw [← Option.some.inj hsame, hworker] at hw
        cases hw
      exact ⟨fun q w hw => absurd hw (hnone q w), h.file, h.bounded,
        fun q w hw => absurd hw (hnone q w), fun _ => rfl⟩
    · exact h

/-- A worker starts when there is none. -/
theorem start (h : Remembers library format path max s c) (hnone : c.running = none) {p : Process}
    {worker : AgentWorker Message Byte} (hhistory : worker.history library = s.restored format path)
    (marks : Process → Mark) :
    Remembers library format path max
      { s with workers := Function.update s.workers p (some worker), marks := marks }
      (c.settled p (Function.update s.workers p (some worker) p).isSome) := by
  rw [Conversation.settled_some]
  have hempty : ∀ q w, s.workers q ≠ some w := by
    intro q w hw
    have hruns := h.alone q w hw
    rw [hnone] at hruns
    cases hruns
  have hone : ∀ q w, Function.update s.workers p (some worker) q = some w → q = p ∧ w = worker := by
    intro q w hw
    by_cases hq : q = p
    · subst hq
      rw [Function.update_self] at hw
      exact ⟨rfl, (Option.some.inj hw).symm⟩
    · rw [Function.update_of_ne hq] at hw
      exact absurd hw (hempty q w)
  refine ⟨fun q w hw => ?_, h.file, h.bounded, fun q w hw => ?_, nofun⟩
  · rw [(hone q w hw).1]
  · rw [(hone q w hw).2, hhistory]
    show Recent max (c.kept ++ c.unsaved) _
    rw [h.idle hnone, List.append_nil]
    exact h.file

/-- The worker goes on with the history it has, or ends. -/
theorem after (h : Remembers library format path max s c) {p : Process}
    (hruns : c.running = some p) {worker : AgentWorker Message Byte}
    {after : Option (AgentWorker Message Byte)}
    (hafter : ∀ w ∈ after, w = { worker with turn := .free }) {s' : Sessions Message Byte}
    {c' : Conversation Message} (hruns' : c'.running = some p)
    (hworkers : s'.workers = Function.update s.workers p after)
    (hfile : Recent max c'.kept (s'.restored format path))
    (hbounded : c'.saved = true → Bounded max (s'.restored format path))
    (hhistory : Recent max (c'.kept ++ c'.unsaved) (worker.history library)) :
    Remembers library format path max s' (c'.settled p (s'.workers p).isSome) := by
  cases after with
  | none => exact h.ends hruns hruns' hworkers hfile hbounded
  | some w =>
    refine h.goesOn hruns hworkers hfile hbounded ?_
    rw [hafter w rfl]
    exact hhistory

end Sessions.Remembers

theorem Sessions.Remembers.windowed (h : s.Remembers library format path max c) :
    Windowed library format path max (s, c) := by
  refine ⟨h.file, h.bounded, ?_, h.worker⟩
  rintro m rfl hm hsaved
  exact h.file.eq_drop hm (h.bounded hsaved)

theorem noted_of_closed (hopens : s.opens x = false) (hcompletes : s.completes x = false) :
    s.noted library c x = { c with unsaved := c.unsaved ++ s.messages library x } := by
  rw [Sessions.noted, if_neg (by simp [hopens]), if_neg (by simp [hcompletes])]

/-- An input at which nothing is said and no save is opened or completed. -/
theorem noted_silent (hopens : s.opens x = false) (hcompletes : s.completes x = false)
    (hsilent : s.messages library x = []) : s.noted library c x = c := by
  rw [noted_of_closed hopens hcompletes, hsilent, List.append_nil]

theorem completes_of_ends (hends : s.ends x = false) : s.completes x = false :=
  (Bool.or_eq_false_iff.mp hends).1

/-- Only the process that runs has a worker, so nobody else is writing. -/
theorem alone_of_remembers (hs : s.Sound library format path max)
    (h : s.Remembers library format path max c) (x : Process × WorkerInput) : s.Alone x := by
  intro hopens
  cases hwriter : s.writer with
  | none => rfl
  | some q =>
    obtain ⟨w, hw, hwriting⟩ := hs.writer q hwriter
    obtain ⟨last, text, offset, hturn⟩ := Turn.isWriting_eq hwriting
    -- a process that opens the file has a save due, so it is not the one that writes
    unfold Sessions.opens at hopens
    split at hopens
    · rename_i hdue _
      obtain ⟨worker, hworker, hdue⟩ := Option.map_eq_some_iff.mp hdue
      have hsame := (h.alone q w hw).symm.trans (h.alone x.1 worker hworker)
      rw [← Option.some.inj hsame, hw] at hworker
      cases hworker
      rw [hturn] at hdue
      cases hdue
    · cases hopens

end

section
variable {Message Byte : Type} [Inhabited Byte] {library : AgentLibrary Message}
  {format : SessionFormat Message Byte} {home : Option PathBuf} {config : Config}
  {profile : String} {agentConfig : AgentConfig} {path : PathBuf} {max : Option Nat}
  {s s' : Sessions Message Byte} {c : Conversation Message} {x : Process × WorkerInput}

theorem Sessions.Remembers.moves (h : s.Remembers library format path max c)
    (hs : s.Sound library format path max) (hx : InTurn (s, c) x)
    (hm : s.Moves library format path max x s') :
    s'.Remembers library format path max
      ((s.noted library c x).settled x.1 (s'.workers x.1).isSome) := by
  cases hm with
  | nothing hends hopens hsilent =>
    rw [noted_silent hopens (completes_of_ends hends) hsilent]
    exact h.stays x.1
  | started hends hopens hsilent hstart hnone worker hworker hturn hhistory =>
    rw [noted_silent hopens (completes_of_ends hends) hsilent]
    exact h.start (hx hstart) hhistory _
  | talked hends hopens worker hworker _ worker' _ _ hhistory =>
    rw [noted_of_closed hopens (completes_of_ends hends)]
    refine h.goesOn (h.alone _ worker hworker) rfl h.file h.bounded ?_
    rw [hhistory, ← List.append_assoc]
    exact (h.worker _ worker hworker).append _
  | opened hends hopens _ worker hworker last =>
    -- what was kept is the worker's alone from here on
    rw [Sessions.noted, if_pos hopens]
    refine h.goesOn (h.alone _ worker hworker) rfl ?_ (fun _ => ?_) (h.worker _ worker hworker)
    · rw [Sessions.restored, restored_opened]
      exact .refl max []
    · rw [Sessions.restored, restored_opened]
      exact bounded_nil max
  | wrote hends hopens hsilent worker hworker last text offset n hturn hlt =>
    rw [noted_silent hopens (completes_of_ends hends) hsilent]
    have hrestored := restored_wrote hs hworker hturn hlt
    have hbefore := hs.restored_writing hworker (by rw [hturn]; rfl)
    refine h.goesOn (h.alone _ worker hworker) rfl ?_ (fun _ => ?_) (h.worker _ worker hworker)
    · rw [Sessions.restored, hrestored, ← hbefore]
      exact h.file
    · rw [Sessions.restored, hrestored]
      exact bounded_nil max
  | completed hyes hopens _ worker hworker last text offset n hturn hle =>
    -- the file gets the truncated history, which is a window of what the worker has
    rw [Sessions.noted, if_neg (by simp [hopens]), if_pos hyes]
    have hruns := h.alone _ worker hworker
    have hhistory := h.worker _ worker hworker
    have hrestored := restored_completed hs hworker hturn hle
    refine h.after hruns AgentWorker.mem_next hruns rfl ?_ (fun _ => ?_) ?_
    · rw [Sessions.restored, hrestored]
      exact hhistory.truncate.1
    · rw [Sessions.restored, hrestored]
      exact hhistory.truncate.2
    · rw [List.append_nil]
      exact hhistory
  | left hcompletes hopens hsilent worker hworker after hafter =>
    rw [noted_silent hopens hcompletes hsilent]
    have hruns := h.alone _ worker hworker
    exact h.after hruns hafter hruns rfl h.file h.bounded (h.worker _ worker hworker)

/-- However often the worker of a profile is replaced, by a stop, an end of the process or a
worker of a job, if they take turns: the session file has the most recent of all that was
said and saved, as much as the bound allows, and the worker has the most recent of all that
was said. -/
theorem sessions_windowed (hlib : library.Remembering)
    (hagent : firstNamed config.agents profile = some agentConfig)
    (hpersist : agentConfig.sessionPersist = true) (files : PathBuf → Option (List Byte))
    (is : List (Process × WorkerInput))
    (his : Meets (Sessions.talk library format home config profile) InTurn
      (Sessions.silent format home config profile files) is) :
    Sessions.Windowed library format (sessionFile home config profile) agentConfig.maxHistory
      (run (Sessions.talk library format home config profile)
        (Sessions.silent format home config profile files) is) := by
  refine (run_invariant
    (P := fun t : Sessions Message Byte × Conversation Message =>
      t.1.Sound library format (sessionFile home config profile) agentConfig.maxHistory ∧
        t.1.Remembers library format (sessionFile home config profile) agentConfig.maxHistory t.2)
    ?_ ⟨Sessions.sound_initial files _, ?_⟩ his).2.windowed
  · rintro ⟨s, c⟩ x ⟨hs, h⟩ hx
    have hm : s.Moves library format (sessionFile home config profile) agentConfig.maxHistory x
        (s.step library format home config profile x) :=
      Sessions.step_moves hlib hagent hpersist rfl hs.workers x
    exact ⟨hs.moves (alone_of_remembers hs h x) hm, h.moves hs hx hm⟩
  · exact ⟨nofun, .refl _ _, nofun, nofun, fun _ => rfl⟩

end

/-- The agent remembers one exchange. -/
def forgetfulConfig : Config :=
  { plainConfig with agents := [{ autoAgent "planner" with maxHistory := some 2 }] }

/-- Three workers one after the other. The first is killed in its second save, the next with
an exchange that it has not saved. -/
def replaced : List (Process × WorkerInput) :=
  [(.agent, .start), (.agent, .chat "question" (.ok "answer"))] ++ savesOf .agent ++
    [(.agent, .chat "more" (.ok "enough")), (.agent, .create true), (.agent, .write 1),
      (.agent, .exit), (.agent, .start), (.agent, .chat "again" (.ok "kept"))] ++
        savesOf .agent ++ [(.agent, .chat "later" (.ok "lost")), (.agent, .exit), (.agent, .start)]

theorem sessions_windowed_replaced :
    Sessions.Windowed plainLibrary plainFormat (sessionFile none forgetfulConfig "planner")
      (some 2)
      (run (Sessions.talk plainLibrary plainFormat none forgetfulConfig "planner")
        (Sessions.silent plainFormat none forgetfulConfig "planner" (fun _ => none)) replaced) :=
  sessions_windowed plainLibrary_remembering
    (show firstNamed forgetfulConfig.agents "planner" =
      some { autoAgent "planner" with maxHistory := some 2 } from rfl) (by rfl) (fun _ => none)
    replaced (by decide +kernel)

end ZeptoPM
