import ClusterPulse.Cluster
import Mathlib.Logic.Function.Basic

/-!
# Many Agents and one Collector

A `Fleet` is any number of Agents, each with its own settings, buffer file and network, that report
to one Collector.  What happens next happens at one of them (`Event`), and the others see of it what
it leaves in the Collector's tables.  Nothing keeps two Agents from being given the same node id.
-/

namespace ClusterPulse

/-- The Agents, by `ι`, and their Collector. -/
structure Fleet (ι : Type) where
  /-- Each Agent with the network between it and the Collector. -/
  sides : ι → Cluster := fun _ => {}
  collector : World := .fresh

namespace Fleet

variable {ι : Type} [DecidableEq ι]

/-- An Agent, its network, and the Collector as it is now. -/
def side (f : Fleet ι) (i : ι) : Cluster := { f.sides i with collector := f.collector }

/-- The fleet with this in the place of the Agent, its network and the Collector. -/
def put (f : Fleet ι) (i : ι) (s : Cluster) : Fleet ι where
  sides := Function.update f.sides i s
  collector := s.collector

/-- The fleet after an event at the Agent `i`. -/
def step (env : Environment) (settings : ι → AgentSettings) (f : Fleet ι) : ι × Event → Fleet ι
  | (i, event) => f.put i ((f.side i).step env (settings i) event)

/-- The fleet after some events, from the start of a fresh deployment. -/
def after (env : Environment) (settings : ι → AgentSettings) (events : List (ι × Event)) :
    Fleet ι :=
  events.foldl (step env settings) {}

/-- What the Agent `i` passed to its executor, with the answers. -/
def executions (f : Fleet ι) (i : ι) : List (PendingAction × Except AgentError ActionResult) :=
  (f.sides i).executions

@[simp] theorem sides_put_self (f : Fleet ι) (i : ι) (s : Cluster) : (f.put i s).sides i = s :=
  Function.update_self ..

theorem sides_put_of_ne (f : Fleet ι) {i j : ι} (hj : j ≠ i) (s : Cluster) :
    (f.put i s).sides j = f.sides j :=
  Function.update_of_ne hj ..

end Fleet

end ClusterPulse
