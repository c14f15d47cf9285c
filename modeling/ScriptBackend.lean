import ScriptBackend.Compilation
import ScriptBackend.Diagnostics
import ScriptBackend.Manifest
import ScriptBackend.Options
import ScriptBackend.Reference.Source
import ScriptBackend.Script.Module
import ScriptBackend.Selection
import ScriptBackend.Toml.Document
import ScriptBackend.Proofs.DependencyOrder
import ScriptBackend.Proofs.DependencyCycle
import ScriptBackend.Proofs.FileName
import ScriptBackend.Proofs.LoadOutcome
import ScriptBackend.Proofs.LoadVerdict
import ScriptBackend.Proofs.SetIndex
import ScriptBackend.Proofs.SetHistory
import ScriptBackend.Proofs.OrderGrowth
import ScriptBackend.Proofs.TrimmedReferences
import ScriptBackend.Proofs.LoadLookup
import ScriptBackend.Proofs.LoadOrder
import ScriptBackend.Proofs.Indentation
import ScriptBackend.Proofs.SessionRecord
import ScriptBackend.Proofs.ModuleText
import ScriptBackend.Proofs.SelectedTypes
import ScriptBackend.Proofs.SortedTypes
import ScriptBackend.Proofs.UnselectedTypes
import ScriptBackend.Proofs.CallSequence
import ScriptBackend.Proofs.LevelBalance
import ScriptBackend.Proofs.RenderedLines
import ScriptBackend.Proofs.CompileStages
import ScriptBackend.Proofs.ModuleSequence
import ScriptBackend.Proofs.LoadSequence
import ScriptBackend.Proofs.PostOrder
import ScriptBackend.Proofs.LoadPermutation
import ScriptBackend.Proofs.TableFields
import ScriptBackend.Proofs.OptionsTable
import ScriptBackend.Proofs.WrittenDocument
import ScriptBackend.Proofs.ManifestRoundTrip
import ScriptBackend.Proofs.FoldedNames
import ScriptBackend.Proofs.ManifestTable
import ScriptBackend.Proofs.ModuleHeader
