import GameFleet.Resource.GameServer
import GameFleet.Settings

/-!
# The pod of an instance

`Pod.ofGameServer` is the pod that runs an instance. It has the name of the instance, so
that a store takes only one, and tells the processes in it who they are and where to
report.
-/

namespace GameFleet

namespace GameServer

/-- What every container of the instance finds in its environment. -/
def identity (g : GameServer) (callbacks : Callbacks) : List EnvVar :=
  [⟨"SERVER_NAME", g.metadata.name⟩,
    ⟨"SERVER_NAMESPACE", g.metadata.ns⟩,
    ⟨"SET_ACTIVE_PLAYERS_URL", callbacks.playersUrl⟩,
    ⟨"SET_SERVER_STATUS_URL", callbacks.statusUrl⟩]

end GameServer

/-- The container with variables added to its environment, in the place of its own of
the same names. -/
def Container.withEnv (c : Container) (env : List EnvVar) : Container :=
  { c with env := (c.env.filter fun e => env.all fun added => added.name != e.name) ++ env }

/-- The pod that runs an instance. -/
def Pod.ofGameServer (g : GameServer) (callbacks : Callbacks) : Pod where
  metadata :=
    { ((Meta.new g.metadata.ns g.metadata.name).withLabel Labels.gameServerName
        g.metadata.name).withLabel Labels.isGameServer "true" with
      owners := [Resource.ownerRef g] }
  spec := {
    containers := g.spec.template.containers.map (·.withEnv (g.identity callbacks))
    restartPolicy := .never
    nodeName := none }
  status := ⟨.pending⟩

end GameFleet
