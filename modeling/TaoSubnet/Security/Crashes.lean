import TaoSubnet.Security.Concurrent
import TaoSubnet.Security.Jobs

/-!
# Processes that die

A process may die at any point of `check_and_record`: a call of its is gone then, and what was
committed stays. A job it worked on is requeued later, when a worker starts up, and becomes another
call.
-/

namespace TaoSubnet

open Py

section

variable {δ : Type} (o : Outside δ) (py : Interpreter)

/-- The database, with the calls on it and the queue of the jobs. -/
structure Site (δ : Type) where
  shared : Shared δ := {}
  queue : Queue := {}

inductive SiteAction (δ : Type)
  | call (action : CallAction δ)
  /-- The process of the call `i` dies; one that makes several calls dies with all of them in turn. -/
  | die (i : Nat)
  | queue (action : QueueAction)

/-- The calls without the call `i`. -/
def Shared.lose (s : Shared δ) (i : Nat) : Shared δ := { s with calls := s.calls.eraseIdx i }

def Site.step (s : Site δ) : SiteAction δ → Option (Site δ)
  | .call action => (s.shared.step o py action).map fun shared => { s with shared := shared }
  | .die i => if i < s.shared.calls.length then some { s with shared := s.shared.lose i } else none
  | .queue action => (s.queue.step action).map fun queue => { s with queue := queue }

end

end TaoSubnet
