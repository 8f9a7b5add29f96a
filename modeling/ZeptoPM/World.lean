import ZeptoPM.Types

/- What a call reads from outside the process: the clocks, the home directory,
   the order in which each hash map happens to be walked, the files, the answers
   of workers, the config file, and the third-party parsers. A `World` is fixed
   for one step; every step may get another one. -/
namespace ZeptoPM

/-- The hash maps and tables whose enumeration order is not specified. -/
inductive MapName where
  | runs | jobs | artifacts | channels | activeJobs | runIds | managed
  | runRows | jobRows | artifactRows | channelRows
  deriving DecidableEq, Repr

/-- The fields a reviewer's JSON object may carry. -/
structure ReviewJson where
  decision : String
  feedback : Option String
  reason : Option String
  deriving DecidableEq, Repr

/-- `serde_json` on the text of agents: parsing a plan, a review object, and
telling whether a text is JSON at all. -/
structure Serde where
  planFromStr : String → Except String ExecutionPlan
  reviewFromStr : String → Option ReviewJson
  isValue : String → Bool

structure DaemonConfig where
  isolation : String
  workerBinary : Option String
  zeptoclawBinary : Option String
  runTtlDays : Nat
  security : Option String
  cgroupRequired : Option Bool
  maxRevisions : Nat
  sessionsDir : Option String := none
  deriving DecidableEq, Repr

structure AgentConfig where
  name : String
  provider : String
  model : Option String
  systemPrompt : Option String
  tools : List String
  autoStart : Bool
  maxRestarts : Nat
  restartBackoffMs : Nat
  maxIterations : Option Nat
  timeoutMs : Option Nat
  sessionPersist : Bool := true
  maxHistory : Option Nat := none
  /-- The limits of capsules. -/
  memoryMib : Option Nat := none
  maxPids : Option Nat := none
  timeoutSec : Option Nat := none
  deriving DecidableEq, Repr

structure Config where
  daemon : DaemonConfig
  agents : List AgentConfig
  /-- The names of the providers. -/
  providers : List String := []
  deriving DecidableEq, Repr

/-- The fields `config_hash` reads: all but the directory and the length of sessions, the
restart backoff, the limits of capsules and the providers. -/
def Config.hashed (c : Config) : DaemonConfig × List AgentConfig :=
  ({ c.daemon with sessionsDir := none },
    c.agents.map (fun a => { a with
      restartBackoffMs := 0
      sessionPersist := true
      maxHistory := none
      memoryMib := none
      maxPids := none
      timeoutSec := none }))

structure World where
  now : SystemTime
  instant : Instant
  homeDir : Option PathBuf
  order : MapName → Enumeration String
  /-- `std::fs::read_to_string`, `none` where it fails. -/
  readToString : PathBuf → Option String
  /-- Whether `std::fs::write` to the path succeeds. -/
  writeOk : PathBuf → Bool
  /-- What the named worker answers to a prompt before the caller's timeout. -/
  chat : String → String → Option String
  serde : Serde
  /-- Full Unicode case mapping of a text. -/
  toLowercase : String → String
  toUppercase : String → String
  /-- What `load_config` reads at a poll tick, `none` where it fails. -/
  loadConfig : Option Config
  /-- What the process finds when it starts: a config that loads and validates. -/
  startConfig : Option Config
  /-- The standard library's hash of the fields of a config. -/
  configHash : DaemonConfig × List AgentConfig → Nat

/-- A world with nothing in it: clocks at zero, maps walked as they are listed,
no file, no answer, no text that parses. -/
def World.bare : World where
  now := 0
  instant := 0
  homeDir := none
  order := fun _ => .id
  readToString := fun _ => none
  writeOk := fun _ => false
  chat := fun _ _ => none
  serde :=
    { planFromStr := fun _ => .error "expected value"
      reviewFromStr := fun _ => none
      isValue := fun _ => false }
  toLowercase := fun s => s
  toUppercase := fun s => s
  loadConfig := none
  startConfig := none
  configHash := fun _ => 0

/-- What `gen_id` has drawn from so far: its process-wide counter, the wall
clock when the process started, and the latest stamp it has put in an id. -/
structure IdSupply where
  startedAt : Nat
  lastStamp : Nat
  counter : Nat
  deriving DecidableEq, Repr

def IdSupply.new : IdSupply := ⟨0, 0, 0⟩

/-- The text of an id: a prefix, a stamp and a count. -/
def stampedId (pre : String) (ts n : Nat) : String :=
  pre ++ "_" ++ toString ts ++ "_" ++ toString n

/-- Generate a unique id with a prefix. -/
def genId (w : World) (ids : IdSupply) (pre : String) : String × IdSupply :=
  (stampedId pre w.now ids.counter,
    { ids with counter := ids.counter + 1, lastStamp := max ids.lastStamp w.now })

/-! ## Ids never repeat -/

/-- An id this process, or one before it, has drawn. -/
def Issued (ids : IdSupply) (id : String) : Prop :=
  ∃ pre ts n, id = stampedId pre ts n ∧ ts ≤ ids.lastStamp ∧
    (ts < ids.startedAt ∨ n < ids.counter)

@[simp] theorem genId_startedAt (w : World) (ids : IdSupply) (pre : String) :
    (genId w ids pre).2.startedAt = ids.startedAt := rfl

/-- The wall clock has not fallen behind the start of the process. -/
def World.After (w : World) (ids : IdSupply) : Prop := ids.startedAt ≤ w.now

instance (w : World) (ids : IdSupply) : Decidable (w.After ids) :=
  inferInstanceAs (Decidable (_ ≤ _))

theorem underscore_notMem_toString (n : Nat) : '_' ∉ (toString n).toList := by
  intro h
  have hd : '_' ∈ Nat.toDigits 10 n := by
    rwa [Nat.toString_eq_repr, Nat.toList_repr] at h
  have := Nat.isDigit_of_mem_toDigits (by decide) (by decide) hd
  exact absurd this (by decide)

theorem toString_injective {m n : Nat} (h : toString m = toString n) : m = n := by
  have hd : Nat.toDigits 10 m = Nat.toDigits 10 n := by
    simpa using congrArg String.toList h
  have hn : ∀ k, Nat.ofDigitChars 10 (Nat.toDigits 10 k) 0 = k := by simp
  rw [← hn m, hd, hn]

/-- Two texts split at their last underscore split alike. -/
theorem split_last_underscore {a b c d : List Char} (hb : '_' ∉ b) (hd : '_' ∉ d)
    (h : a ++ '_' :: b = c ++ '_' :: d) : a = c ∧ b = d := by
  have hrev := congrArg List.reverse h
  simp only [List.reverse_append, List.reverse_cons, List.append_assoc, List.singleton_append] at hrev
  have hb' : '_' ∉ b.reverse := by simpa using hb
  have hd' : '_' ∉ d.reverse := by simpa using hd
  have key := List.append_eq_append_iff.mp hrev
  rcases key with ⟨x, hx, hy⟩ | ⟨x, hx, hy⟩
  · cases x with
    | nil =>
      simp at hx hy
      exact ⟨hy, hx.symm⟩
    | cons y ys =>
      simp only [List.cons_append, List.cons.injEq] at hy
      exact absurd (by rw [hx, ← hy.1]; simp) hd'
  · cases x with
    | nil =>
      simp at hx hy
      exact ⟨hy.symm, hx⟩
    | cons y ys =>
      simp only [List.cons_append, List.cons.injEq] at hy
      exact absurd (by rw [hx, ← hy.1]; simp) hb'

theorem stampedId_inj {p p' : String} {ts ts' n n' : Nat}
    (h : stampedId p ts n = stampedId p' ts' n') : ts = ts' ∧ n = n' := by
  have hl := congrArg String.toList h
  have hstep := split_last_underscore (a := (p ++ "_" ++ toString ts).toList)
    (c := (p' ++ "_" ++ toString ts').toList) (underscore_notMem_toString n)
    (underscore_notMem_toString n') (by simpa [stampedId] using hl)
  have hstep' := split_last_underscore (a := p.toList) (c := p'.toList)
    (underscore_notMem_toString ts) (underscore_notMem_toString ts')
    (by simpa using hstep.1)
  exact ⟨toString_injective (String.toList_inj.mp hstep'.2),
    toString_injective (String.toList_inj.mp hstep.2)⟩

theorem genId_fresh {w : World} {ids : IdSupply} {pre : String} (hw : w.After ids) :
    ¬ Issued ids (genId w ids pre).1 := by
  intro h
  obtain ⟨p, ts, n, hid, _, hlt⟩ := h
  obtain ⟨hts, hn⟩ := stampedId_inj hid
  unfold World.After at hw
  omega

theorem issued_genId {w : World} {ids : IdSupply} {pre : String} :
    Issued (genId w ids pre).2 (genId w ids pre).1 :=
  ⟨pre, w.now, ids.counter, rfl, Nat.le_max_right _ _, Or.inr (Nat.lt_succ_self _)⟩

/-- Later supplies know every id earlier ones have drawn. -/
structure IdSupply.Le (a b : IdSupply) : Prop where
  startedAt : a.startedAt ≤ b.startedAt
  lastStamp : a.lastStamp ≤ b.lastStamp
  counter : a.counter ≤ b.counter ∨ a.lastStamp < b.startedAt

theorem IdSupply.Le.refl (a : IdSupply) : a.Le a :=
  ⟨Nat.le_refl _, Nat.le_refl _, Or.inl (Nat.le_refl _)⟩

theorem IdSupply.Le.trans {a b c : IdSupply} (hab : a.Le b) (hbc : b.Le c) : a.Le c := by
  obtain ⟨h₁, h₂, h₃⟩ := hab
  obtain ⟨h₄, h₅, h₆⟩ := hbc
  exact ⟨by omega, by omega, by omega⟩

theorem Issued.mono {a b : IdSupply} (h : a.Le b) {id : String} (hid : Issued a id) :
    Issued b id := by
  obtain ⟨p, ts, n, rfl, hts, hlt⟩ := hid
  refine ⟨p, ts, n, rfl, Nat.le_trans hts h.lastStamp, ?_⟩
  have hs := h.startedAt
  have hc := h.counter
  omega

theorem IdSupply.le_genId (w : World) (ids : IdSupply) (pre : String) :
    ids.Le (genId w ids pre).2 :=
  ⟨Nat.le_refl _, Nat.le_max_left _ _, Or.inl (Nat.le_succ _)⟩

end ZeptoPM
