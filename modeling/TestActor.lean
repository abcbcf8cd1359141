import TestActor.FileSystem
import TestActor.Main
import TestActor.Proofs.FirstError
import TestActor.Proofs.FirstOccurrence
import TestActor.Proofs.Lookup
import TestActor.Proofs.SharedTypes
import TestActor.Proofs.Registration
import TestActor.Proofs.Preparation
import TestActor.Proofs.Substitution
import TestActor.Proofs.Production
import TestActor.Proofs.ManifestActions
import TestActor.Proofs.ManifestGeneration
import TestActor.Proofs.ProducedDocument
import TestActor.Proofs.Ownership
import TestActor.Proofs.PublicNames
import TestActor.Proofs.JsonText
import TestActor.Proofs.FingerprintText
import TestActor.Proofs.DiskRun
import TestActor.Proofs.PathWalk
import TestActor.Proofs.FileReplacement
import TestActor.Proofs.ReplacingAgain
import TestActor.Proofs.StampGrammar
import TestActor.Proofs.StampReading
import TestActor.Proofs.ProjectLoading
import TestActor.Proofs.Rebuild
import TestActor.Proofs.DocumentSettings
import TestActor.Proofs.ConfigEdits
import TestActor.Proofs.EqualFingerprints
import TestActor.Proofs.CheckAndBuild
import TestActor.Proofs.AppendedModules
import TestActor.Proofs.AddedEntries
import TestActor.Proofs.PathNames
import TestActor.Proofs.ReplacementFrame
import TestActor.Proofs.OverwrittenFiles
import TestActor.Proofs.ProjectRuns
import TestActor.Proofs.StringBodies
import TestActor.Proofs.WrittenStrings
import TestActor.Proofs.WrittenDocuments
import TestActor.Proofs.SavedConfigs
import TestActor.Proofs.ForcedBuilds
import TestActor.Proofs.ActionListing
import TestActor.Proofs.InheritedMethods
import TestActor.Proofs.DescriptorContents
import TestActor.Proofs.DocDelimiters
import TestActor.Proofs.ExitCodes
import TestActor.Proofs.ParentPaths
import TestActor.Proofs.WholeReplacement
import TestActor.Proofs.RegistryCalls
import TestActor.Proofs.ManifestFaults
import TestActor.Proofs.ImportedTypes
import TestActor.Proofs.ConditionalNames
import TestActor.Proofs.TemplateText
import TestActor.Proofs.CommentBodies
import TestActor.Proofs.InsertedTypes
import TestActor.Proofs.Signatures
