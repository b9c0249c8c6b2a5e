import IdlModel.Main
import IdlModel.Proofs.CallbackInterfaces
import IdlModel.Proofs.CleanLinking
import IdlModel.Proofs.ClosedModel
import IdlModel.Proofs.ErrorLimit
import IdlModel.Proofs.EventHandlers
import IdlModel.Proofs.FinalNames
import IdlModel.Proofs.FinishedStages
import IdlModel.Proofs.IndependentBlocks
import IdlModel.Proofs.InertDuplicates
import IdlModel.Proofs.InheritanceCycles
import IdlModel.Proofs.InheritedCopies
import IdlModel.Proofs.LinkTermination
import IdlModel.Proofs.LocalLexing
import IdlModel.Proofs.MergedConstructors
import IdlModel.Proofs.NameIndex
import IdlModel.Proofs.Packages
import IdlModel.Proofs.PreservedTypes
import IdlModel.Proofs.QuotedStrings
import IdlModel.Proofs.RepeatedRuns
import IdlModel.Proofs.ScanTermination
import IdlModel.Proofs.ScriptReading
import IdlModel.Proofs.SelectedStatements
import IdlModel.Proofs.Suggestions
import IdlModel.Proofs.TypeReading
import IdlModel.Proofs.UniqueKeys
import IdlModel.Proofs.VisibleNames
import IdlModel.Proofs.WrittenDocuments
import IdlModel.Syntax.TypeReader
