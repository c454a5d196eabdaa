import PluginForge.Code.Expr
import PluginForge.Code.Json
import PluginForge.Code.Object
import PluginForge.Code.Stmt
import PluginForge.CommandLine.Argument
import PluginForge.CommandLine.Invocation
import PluginForge.CommandLine.Outcome
import PluginForge.Decimal.Basic
import PluginForge.Decimal.Binary
import PluginForge.Decimal.Power
import PluginForge.Decimal.Shortest
import PluginForge.Descriptor.Basic
import PluginForge.Descriptor.Catalog
import PluginForge.Descriptor.Error
import PluginForge.Descriptor.Javadoc
import PluginForge.Descriptor.Json
import PluginForge.Descriptor.Manifest
import PluginForge.Descriptor.Request
import PluginForge.Emitter
import PluginForge.Files.Path
import PluginForge.Files.Tree
import PluginForge.Generation.Construction
import PluginForge.Generation.Context
import PluginForge.Generation.Conversion
import PluginForge.Generation.DefaultValue
import PluginForge.Generation.Error
import PluginForge.Generation.Parameter
import PluginForge.Generation.Registry
import PluginForge.Generation.Replication
import PluginForge.Generation.TaskPlan
import PluginForge.Generation.TriggerPlan
import PluginForge.Gradle.Artifact
import PluginForge.Gradle.ExtensionType
import PluginForge.Gradle.Names
import PluginForge.Gradle.PluginType
import PluginForge.Gradle.SpecificationType
import PluginForge.Gradle.TaskType
import PluginForge.Json.Basic
import PluginForge.Json.Printer
import PluginForge.Json.Reader
import PluginForge.Json.Record
import PluginForge.KeyMap
import PluginForge.Main
import PluginForge.Maven.Mojo
import PluginForge.Naming
import PluginForge.Proofs.AssignedTypes
import PluginForge.Proofs.AttemptedCopies
import PluginForge.Proofs.AttemptedWrites
import PluginForge.Proofs.BuiltTypes
import PluginForge.Proofs.ByteOrder
import PluginForge.Proofs.CallClosure
import PluginForge.Proofs.CalledConstructors
import PluginForge.Proofs.CarriedModels
import PluginForge.Proofs.CatalogLoading
import PluginForge.Proofs.ClassConversion
import PluginForge.Proofs.CodeEncoding
import PluginForge.Proofs.CodeParts
import PluginForge.Proofs.CollectionFilling
import PluginForge.Proofs.ConfigurationBodies
import PluginForge.Proofs.ConstructedCode
import PluginForge.Proofs.ConstructorChoice
import PluginForge.Proofs.ConverterBodies
import PluginForge.Proofs.ConverterCalls
import PluginForge.Proofs.ConverterCorrectness
import PluginForge.Proofs.DefinitionEncoding
import PluginForge.Proofs.DisplayedTypes
import PluginForge.Proofs.EffectiveValues
import PluginForge.Proofs.EnumDefaults
import PluginForge.Proofs.Evaluation
import PluginForge.Proofs.EvaluationRules
import PluginForge.Proofs.ExtensionLibrary
import PluginForge.Proofs.FailedCalls
import PluginForge.Proofs.FlattenedStatements
import PluginForge.Proofs.GradleAgreement
import PluginForge.Proofs.GradleProperties
import PluginForge.Proofs.HistoryIndependence
import PluginForge.Proofs.InstanceBinding
import PluginForge.Proofs.InstanceConstruction
import PluginForge.Proofs.IntegerDefaults
import PluginForge.Proofs.InterruptedValidation
import PluginForge.Proofs.JsonAgreement
import PluginForge.Proofs.JsonPrinting
import PluginForge.Proofs.JsonSpelling
import PluginForge.Proofs.LocalVariables
import PluginForge.Proofs.ManifestRoundTrip
import PluginForge.Proofs.MethodSignatures
import PluginForge.Proofs.MissingValues
import PluginForge.Proofs.ModelTypes
import PluginForge.Proofs.MojoExecution
import PluginForge.Proofs.NamedCopies
import PluginForge.Proofs.NamedDefinitions
import PluginForge.Proofs.NamedEntries
import PluginForge.Proofs.NamedTypes
import PluginForge.Proofs.NestedCalls
import PluginForge.Proofs.NullableCalls
import PluginForge.Proofs.ObjectTrees
import PluginForge.Proofs.ObservedRuns
import PluginForge.Proofs.OwnCopies
import PluginForge.Proofs.OwnTasks
import PluginForge.Proofs.ParameterReads
import PluginForge.Proofs.PlannedTasks
import PluginForge.Proofs.PrintedTypes
import PluginForge.Proofs.PropertyConversion
import PluginForge.Proofs.PropertyKeys
import PluginForge.Proofs.PropertyMarks
import PluginForge.Proofs.QualifiedNames
import PluginForge.Proofs.Redocumentation
import PluginForge.Proofs.ReferenceIntegrity
import PluginForge.Proofs.RegisteredTasks
import PluginForge.Proofs.RegistryEntries
import PluginForge.Proofs.ReplicaNames
import PluginForge.Proofs.ReplicationFailure
import PluginForge.Proofs.ReplicationInvariant
import PluginForge.Proofs.ReplicationLogic
import PluginForge.Proofs.ReplicationRecursion
import PluginForge.Proofs.ReplicationRule
import PluginForge.Proofs.ReplicationStates
import PluginForge.Proofs.ReportedErrors
import PluginForge.Proofs.Results
import PluginForge.Proofs.ScopedDefinitions
import PluginForge.Proofs.Scopes
import PluginForge.Proofs.SessionRetry
import PluginForge.Proofs.SessionWrites
import PluginForge.Proofs.SourceLibrary
import PluginForge.Proofs.StoredDocumentation
import PluginForge.Proofs.StoredOnce
import PluginForge.Proofs.TaskResolution
import PluginForge.Proofs.TouchedModels
import PluginForge.Proofs.TriggerOrder
import PluginForge.Proofs.TypeGrammar
import PluginForge.Proofs.UnsetParameters
import PluginForge.Proofs.UnsuitedDefaults
import PluginForge.Proofs.ValidationWalk
import PluginForge.Proofs.ValidatorVerdicts
import PluginForge.Proofs.ValueFlow
import PluginForge.Proofs.WitherLaws
import PluginForge.Proofs.WrittenTypes
import PluginForge.Session
import PluginForge.Settings.Basic
import PluginForge.Settings.LogFilter
import PluginForge.Store.Basic
import PluginForge.Store.Directory
import PluginForge.Text.Alphanumeric
import PluginForge.Text.Blank
import PluginForge.Text.Casing
import PluginForge.Text.CodeRange
import PluginForge.Toml.Basic
import PluginForge.Toml.Moment
import PluginForge.Toml.Number
import PluginForge.Toml.Reader
import PluginForge.Toml.Text
import PluginForge.Types.Parser
import PluginForge.Types.Primitive
import PluginForge.Types.SourceType
import PluginForge.Types.TypeRef
import PluginForge.Unseen
import PluginForge.Validator
