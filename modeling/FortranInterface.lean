import FortranInterface.Main
import FortranInterface.Proofs.WaitingProcedures
import FortranInterface.Proofs.PassedObject
import FortranInterface.Proofs.HostAssociation
import FortranInterface.Proofs.TypeIdentity
import FortranInterface.Proofs.WarningSettings
import FortranInterface.Proofs.ConsistentCharacteristics
import FortranInterface.Proofs.WellFormedTable
import FortranInterface.Proofs.AccessPlacement
import FortranInterface.Proofs.LoopProgress
import FortranInterface.Proofs.SourceRanges
import FortranInterface.Proofs.CaseFolding
import FortranInterface.Proofs.KeywordOrder
import FortranInterface.Proofs.Distinguishability
import FortranInterface.Proofs.ConstructorExtents
import FortranInterface.Proofs.ElementalConformance
import FortranInterface.Proofs.GenericAcceptance
import FortranInterface.Proofs.ReportedFindings
import FortranInterface.Proofs.SectionSpelling
import FortranInterface.Proofs.LiteralSpelling
import FortranInterface.Proofs.Contiguity
import FortranInterface.Proofs.ArithmeticTyping
import FortranInterface.Proofs.LiteralKinds
