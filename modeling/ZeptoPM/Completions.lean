import ZeptoPM.ChannelArtifact

/- Who completes a job. Besides the closing of its last channel there is only the event that
   reports the job completed, and it does so first of all (`calls_reported`): the other
   handlers are gone through for the calls that complete a job, and make none
   (`calls_unreported`). -/
namespace ZeptoPM
open OrchestratorEngine Daemon

/-! ## Handlers that complete no job -/

theorem completedBy_of_completes {w : World} {a : Action} (h : a.completes = false) :
    completedBy (w, a) = none := by
  cases a with
  | call r f =>
    cases f with
    | markCompleted k o => cases h
    | _ => rfl
  | _ => rfl

/-- What is done between the two daemons completes no job. -/
abbrev CompletesNone (w : World) : Daemon → Daemon → Prop := Did (·.completes = false) w

theorem skeleton_completesNone (w : World) : Skeleton w (CompletesNone w) false true :=
  skeleton_did (fun _ h => Action.completes_of_isPlain h) (fun _ => rfl) w

/-! ## Steps -/

section
variable {w : World} {d : Daemon} {i : Input} {j : JobId}

theorem CompletesNone.calls {d₀ d' : Daemon} (h : CompletesNone w d₀ d') (hempty : d₀.calls = []) :
    ∀ x ∈ d'.calls, completedBy x = none := by
  obtain ⟨l, hcalls, hl⟩ := h
  rw [hempty, List.nil_append] at hcalls
  rw [hcalls]
  exact fun x hx => completedBy_of_completes (hl x hx).2

/-- The handler of a completion event completes the job it names, and then no other. -/
theorem calls_jobCompleted {d₀ d' : Daemon} {k : JobId} {artifacts : List ArtifactId}
    (hempty : d₀.calls = []) (h : d₀.jobCompleted w k artifacts = .ok d' ∨
      d₀.jobCompleted w k artifacts = .error d') :
    ∃ rest, d'.calls = (w, .call (d₀.jobRunId k) (.markCompleted k artifacts)) :: rest ∧
      ∀ x ∈ rest, completedBy x = none := by
  have hk := skeleton_completesNone w
  obtain ⟨hok, herror⟩ := hk.reported d₀ k artifacts
  obtain ⟨rest, hcalls, hrest⟩ := h.elim (fun h => hk.finishes (hok h)) herror
  refine ⟨rest, ?_, fun x hx => completedBy_of_completes (hrest x hx).2⟩
  rw [hcalls]
  show d₀.calls ++ _ ++ _ = _
  rw [hempty]
  rfl

/-- An event that is handled leaves the calls of its handler, whether or not the process
outlives it. -/
theorem step_event {v : Json} (halive : d.alive = true) : ∃ d', (d.step (w, .event v)).calls =
    d'.calls ∧ (({ d with sent := [], calls := [] } : Daemon).handleEvent w v = .ok d' ∨
      ({ d with sent := [], calls := [] } : Daemon).handleEvent w v = .error d') := by
  rw [step_of_alive rfl halive]
  dsimp only [handle]
  generalize ({ d with sent := [], calls := [] } : Daemon).handleEvent w v = handled
  cases handled with
  | ok d' => exact ⟨d', rfl, Or.inl rfl⟩
  | error d' => exact ⟨d', rfl, Or.inr rfl⟩

/-- A job that is reported completed is completed, and first of all. -/
theorem calls_reported (halive : d.alive = true) (h : i.completes j = true) :
    ∃ r artifacts rest, (d.step (w, i)).calls = (w, .call r (.markCompleted j artifacts)) :: rest ∧
      ∀ x ∈ rest, completedBy x = none := by
  cases i with
  | event v =>
    obtain ⟨htype, hjob⟩ : v.strOr "type" "" = "job_completed" ∧ v.strOr "job_id" "" = j := by
      simpa [Input.completes] using h
    obtain ⟨d', hcalls, hhandled⟩ := step_event (w := w) (v := v) halive
    dsimp only [handleEvent] at hhandled
    rw [htype, hjob] at hhandled
    obtain ⟨rest, hrest⟩ := calls_jobCompleted rfl hhandled
    exact ⟨_, _, rest, hcalls.trans hrest.1, hrest.2⟩
  | _ => cases h

/-- Where the input is no event, no job is completed. -/
theorem calls_notEvent (hi : ∀ v, i ≠ .event v) :
    ∀ x ∈ (d.step (w, i)).calls, completedBy x = none := by
  have hk := skeleton_completesNone w
  have hboot : ∀ d₀ : Daemon, CompletesNone w d₀ (d₀.boot w) := by
    intro d₀
    obtain ⟨l, hcalls, _, hl⟩ := boot_calls w d₀
    refine ⟨l, hcalls, fun x hx => ?_⟩
    rcases hl with ⟨rfl, _⟩ | rfl
    · cases hx
    · rw [List.mem_singleton.mp hx]
      exact ⟨rfl, rfl⟩
  suffices hnone : CompletesNone w { d with sent := [], calls := [] } (d.step (w, i)) from
    CompletesNone.calls hnone rfl
  generalize hd₀ : ({ d with sent := [], calls := [] } : Daemon) = d₀
  cases halive : d.alive with
  | false =>
    rw [step_of_dead hd₀.symm halive]
    cases i with
    | start => exact hboot d₀
    | _ => exact (Untouched.refl d₀).did
  | true =>
    rw [step_of_alive hd₀.symm halive]
    cases i with
    | event v => exact absurd rfl (hi v)
    | update u => exact (untouched_agentUpdate w d₀ u).did
    | command c => exact hk.handleCommand d₀ c
    | tick =>
      exact Did.trans (untouched_reloadConfig w d₀).did
        (hk.tick (fun d r => .act d (a := .expire r) rfl) d₀)
    | shutdown =>
      obtain ⟨d', hd', heq⟩ := hk.shutdown d₀
      show CompletesNone w d₀ (d₀.shutdown w)
      rw [heq]
      exact hd'
    | start => exact hboot d₀

/-- A job of which nothing is said on channels is completed by its report alone. -/
theorem calls_unreported (hover : i.overChannel = false)
    (h : d.alive = true → i.completes j = false) :
    ∀ x ∈ (d.step (w, i)).calls, completedBy x ≠ some j := by
  have hnone : (∀ x ∈ (d.step (w, i)).calls, completedBy x = none) →
      ∀ x ∈ (d.step (w, i)).calls, completedBy x ≠ some j := by
    intro hnone x hx
    rw [hnone x hx]
    nofun
  cases i with
  | event v =>
    cases halive : d.alive with
    | false =>
      refine hnone fun x hx => ?_
      rw [step_of_dead rfl halive] at hx
      cases hx
    | true =>
      obtain ⟨d', hcalls, hhandled⟩ := step_event (w := w) (v := v) halive
      by_cases htype : v.strOr "type" "" = "job_completed"
      · have hjob : v.strOr "job_id" "" ≠ j := by
          simpa [Input.completes, htype] using h halive
        dsimp only [handleEvent] at hhandled
        rw [htype] at hhandled
        obtain ⟨rest, hfirst, hrest⟩ := calls_jobCompleted rfl hhandled
        rw [hcalls, hfirst]
        intro x hx
        -- the report is of another job
        rcases List.mem_cons.mp hx with rfl | hx
        · exact fun heq => hjob (Option.some.inj heq)
        · rw [hrest x hx]
          nofun
      · refine hnone ?_
        rw [hcalls]
        obtain ⟨hmessage, hdone⟩ : v.strOr "type" "" ≠ "channel_message" ∧
            v.strOr "type" "" ≠ "channel_done" := by
          simpa [Input.overChannel] using hover
        exact CompletesNone.calls ((skeleton_completesNone w).otherEvent _ htype hmessage hdone
          hhandled) rfl
  | _ => exact hnone (calls_notEvent nofun)

end

end ZeptoPM
