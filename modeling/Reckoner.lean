import Reckoner.Main
import Reckoner.Proofs.Canonical
import Reckoner.Proofs.Composition
import Reckoner.Proofs.Evaluation.FirstFault
import Reckoner.Proofs.Evaluation.OnDemand
import Reckoner.Proofs.Labels
import Reckoner.Proofs.Lexer.Acceptance
import Reckoner.Proofs.Locality
import Reckoner.Proofs.Parser.Conservation
import Reckoner.Proofs.Parser.Descent
import Reckoner.Proofs.Parser.Diagnosis
import Reckoner.Proofs.Parser.Language
import Reckoner.Proofs.Parser.Online
import Reckoner.Proofs.PrefixForm
import Reckoner.Proofs.Program.Origins
import Reckoner.Proofs.Program.Stages
import Reckoner.Proofs.Program.Supplying
import Reckoner.Proofs.Registry
import Reckoner.Proofs.Session.History
import Reckoner.Proofs.Spacing
