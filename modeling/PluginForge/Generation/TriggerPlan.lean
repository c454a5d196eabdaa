import PluginForge.Generation.TaskPlan

/-! What a trigger type asks for, resolved: the tasks of a Gradle plugin, or Maven mojos. -/

namespace PluginForge

structure GradleTask where
  task : TaskPlan
  extensionMethodName : String
  taskDoc : String
  methodDoc : String
  cacheable : Bool

structure GradlePlan where
  tasks : List GradleTask
  packageName : String
  namePrefix : String
  taskGroup : Option String
  micronautPlugin : Bool
  dependency : Option String
  kinds : List ArtifactKind
  /-- The copies that any of the tasks uses. -/
  replicas : List Replica

structure MojoPlan where
  task : TaskPlan
  packageName : String
  micronautPlugin : Bool
  propertyPrefix : String
  taskDoc : String
  methodDoc : String

/-- The Maven property that a global property of a parameter is read from. -/
def MojoPlan.propertyKey (m : MojoPlan) (globalProperty : String) : String :=
  let dotted := Naming.dotted globalProperty
  if m.propertyPrefix.isEmpty then dotted else s!"{m.propertyPrefix}.{dotted}"

structure MavenPlan where
  mojos : List MojoPlan
  replicas : List Replica

/-- Resolves tasks one after the other, each with the copies the earlier ones made. -/
def resolveAll {ρ α : Type} (resolve : ρ → Registry → Except GenerateError (α × Registry)) :
    List ρ → Registry → Except GenerateError (List α × Registry)
  | [], registry => .ok ([], registry)
  | request :: rest, registry => do
    let (first, registry) ← resolve request registry
    let (others, registry) ← resolveAll resolve rest registry
    return (first :: others, registry)

namespace GradlePlan

def resolveTask (cx : Context) (trigger : Descriptor) (r : GradleTaskRequest) (registry : Registry) :
    Except GenerateError (GradleTask × Registry) := do
  let (task, registry) ←
    TaskPlan.resolve cx trigger.name trigger.packageName r.source r.namePrefix registry
  let resolved : GradleTask := {
    task
    extensionMethodName := r.extensionMethodName.getD task.methodName
    taskDoc := task.javadoc.summary.getD s!"{task.namePrefix} Gradle task."
    methodDoc := task.methodDoc?.getD s!"Main execution of {task.namePrefix} task."
    cacheable := r.cacheable
  }
  return (resolved, registry)

def ofTrigger (cx : Context) (trigger : Descriptor) : Except GenerateError GradlePlan :=
  match trigger.gradlePlugin with
  | none => .error (.missingTrigger trigger.name .gradle)
  | some request => do
    let (tasks, registry) ← resolveAll (resolveTask cx trigger) request.tasks {}
    return {
      tasks
      packageName := trigger.packageName
      namePrefix := TaskPlan.prefixOr request.namePrefix trigger
      taskGroup := request.taskGroup
      micronautPlugin := request.micronautPlugin
      dependency := request.dependency
      kinds := request.types
      replicas := registry.replicas
    }

end GradlePlan

namespace MavenPlan

def resolveMojo (cx : Context) (trigger : Descriptor) (r : MojoRequest) (registry : Registry) :
    Except GenerateError (MojoPlan × Registry) := do
  let (task, registry) ←
    TaskPlan.resolve cx trigger.name trigger.packageName r.source r.namePrefix registry
  let resolved : MojoPlan := {
    task
    packageName := trigger.packageName
    micronautPlugin := r.micronautPlugin
    propertyPrefix := r.mavenPropertyPrefix
    taskDoc := task.javadoc.summary.getD s!"{task.namePrefix} Maven mojo."
    methodDoc := task.methodDoc?.getD s!"Main execution of {task.namePrefix} mojo."
  }
  return (resolved, registry)

def ofTrigger (cx : Context) (trigger : Descriptor) : Except GenerateError MavenPlan :=
  if trigger.mavenMojos.isEmpty then .error (.missingTrigger trigger.name .maven)
  else do
    let (mojos, registry) ← resolveAll (resolveMojo cx trigger) trigger.mavenMojos {}
    return { mojos, replicas := registry.replicas }

end MavenPlan

end PluginForge
