import ZeptoPM.Restarts

/- What the daemon does to its fleet. A handler that starts, restarts, adds or removes agents
   is made of few things: an agent is spawned in the place of what there was under its name,
   an entry is dropped, a job gets a worker, or the entries of agents are left alone. A
   relation that is kept by these is kept by every handler (`Composed.handles`). -/
namespace ZeptoPM
open Daemon

/-- The entry of an agent that has just been spawned. -/
structure InternalAgent.Fresh (agent : InternalAgent) : Prop where
  status : agent.status = .starting
  lastError : agent.lastError = none
  tokensUsed : agent.tokensUsed = 0
  pid : agent.pid = none

theorem fresh_managedAgent (agent : AgentConfig) (n : Nat) :
    ({ managedAgent agent with restartCount := n } : InternalAgent).Fresh := ⟨rfl, rfl, rfl, rfl⟩

namespace Fleet

/-- A relation that holds of everything that the handlers are made of at the site. -/
structure Composed (s : Site) (R : Fleet → Fleet → Prop) : Prop where
  refl : ∀ f, R f f
  trans : ∀ {f f' f''}, R f f' → R f' f'' → R f f''
  enlist : ∀ (f : Fleet) name d agent, agent.Fresh →
    (∀ k, d.managed.get k = if k = name then some agent else f.daemon.managed.get k) →
      R f (f.enlist s name d)
  drop : ∀ (f : Fleet) name (d : Daemon),
    (∀ k, d.managed.get k = if k = name then none else f.daemon.managed.get k) →
      R f { f with daemon := d, shared := f.shared.removeAgent name }
  worker : ∀ (f : Fleet) (d : Daemon) launch jobId,
    (∀ k, ¬ JobWorker k → d.managed.get k = f.daemon.managed.get k) →
      R f (f.register (workerName jobId) launch d)
  aside : ∀ (f : Fleet) (d : Daemon),
    (∀ k, ¬ JobWorker k → d.managed.get k = f.daemon.managed.get k) → R f { f with daemon := d }

namespace Composed
variable {s : Site} {R : Fleet → Fleet → Prop} (h : Composed s R)
include h

theorem foldl {α : Type} {g : Fleet → α → Fleet} (hg : ∀ f a, R f (g f a)) (l : List α)
    (f : Fleet) : R f (l.foldl g f) := by
  induction l generalizing f with
  | nil => exact h.refl f
  | cons a l ih => exact h.trans (hg f a) (ih (g f a))

theorem reply (f : Fleet) (result : Except String String) : R f (f.reply result) :=
  h.aside f _ (fun _ _ => rfl)

theorem spawnManagedAgent (f : Fleet) (agent : AgentConfig) :
    R f (f.spawnManagedAgent s agent) :=
  h.enlist f agent.name _ (managedAgent agent) (fresh_managedAgent agent 0)
    (spawnManagedAgent_get f.daemon agent)

theorem removeManaged (f : Fleet) (name : String) : R f (f.removeManaged name) :=
  h.drop f name _ (fun _ => HashMap.get_remove ..)

theorem dropManaged (f : Fleet) (name : String) : R f (f.dropManaged name) := by
  unfold Fleet.dropManaged
  split
  · exact h.drop f name _ (dropManaged_get f.daemon name)
  · exact h.refl f

theorem startConfigured (f : Fleet) (name done : String) :
    R f (f.startConfigured s name done) := by
  unfold Fleet.startConfigured
  split
  · rename_i agent _
    exact h.trans (h.spawnManagedAgent f agent) (h.reply _ _)
  · exact h.reply f _

theorem startAgent (f : Fleet) (name : String) : R f (f.startAgent s name) := by
  unfold Fleet.startAgent
  split
  · split
    · exact h.reply f _
    · exact h.trans (h.removeManaged f name) (h.startConfigured _ name "started")
  · exact h.startConfigured f name "started"

theorem addManaged (f : Fleet) (agent : AgentConfig) : R f (f.addManaged s agent) := by
  unfold Fleet.addManaged
  split
  · exact h.refl f
  · exact h.spawnManagedAgent f agent

theorem reloadConfig (f : Fleet) : R f (f.reloadConfig s) := by
  unfold Fleet.reloadConfig
  split
  · exact h.refl f
  · split
    · exact h.refl f
    · rename_i config _ _
      have happly : R f (f.applyConfigChanges s config) :=
        h.trans (h.foldl h.dropManaged _ f) (h.foldl h.addManaged _ _)
      exact h.trans happly (h.aside _ _ (fun _ _ => rfl))

theorem restartDue (f : Fleet) (name : String) : R f (f.restartDue s name) := by
  unfold Fleet.restartDue
  split
  · exact h.refl f
  · rename_i agent hagent
    have hget : ∀ k, (f.daemon.restartDue name).managed.get k = if k = name then
        some { managedAgent agent with
          restartCount := ((f.daemon.managed.get name).map (·.restartCount)).getD 0 + 1 }
        else f.daemon.managed.get k := by
      intro k
      rw [restartDue_get]
      unfold redone
      unfold firstNamed at hagent
      rw [hagent]
    exact h.enlist f name _ _ (fresh_managedAgent agent _) hget

theorem spawnJobWorker (f : Fleet) (job : Job) : R f (f.spawnJobWorker s job) := by
  have hother : ∀ k, ¬ JobWorker k →
      (f.daemon.spawnJobWorker s.world job).managed.get k = f.daemon.managed.get k :=
    fun k hk => spawnJobWorker_get_ne hk s.world job
  unfold Fleet.spawnJobWorker
  dsimp only
  split
  · exact h.worker f _ _ _ hother
  · split
    · exact h.aside f _ hother
    · exact h.worker f _ _ _ hother

theorem handles (f : Fleet) {i : FleetInput} (hi : Handles s i) : R f (f.step i) := by
  cases i with
  | start s' name =>
    cases hi
    exact h.startAgent f name
  | restart s' name =>
    cases hi
    exact h.trans (h.dropManaged f name) (h.startConfigured _ name "restarted")
  | reload s' =>
    cases hi
    exact h.reloadConfig f
  | restartAgents s' =>
    cases hi
    exact h.foldl h.restartDue _ f
  | spawnJob s' job =>
    cases hi
    exact h.spawnJobWorker f job
  | dropJob jobId =>
    exact h.aside f _ (fun k hk => removeManaged_get_ne (fun heq => hk ⟨jobId, heq⟩))
  | elsewhere d => exact h.aside f _ (fun _ _ => rfl)
  | _ => exact hi.elim

end Composed
end Fleet
end ZeptoPM
