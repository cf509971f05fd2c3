import Dossier.Main
import Dossier.Tree.World
import Dossier.Proofs.Account.Lookup
import Dossier.Proofs.Collector.Keys
import Dossier.Proofs.Collector.Session
import Dossier.Proofs.CommandLine.Arguments
import Dossier.Proofs.CommandLine.Log
import Dossier.Proofs.CommandLine.Outcome
import Dossier.Proofs.Home.Expansion
import Dossier.Proofs.Report.Batch
import Dossier.Proofs.Report.Enclosing
import Dossier.Proofs.Report.Equality
import Dossier.Proofs.Report.Framing
import Dossier.Proofs.Report.Replay
import Dossier.Proofs.Report.RoundTrip
import Dossier.Proofs.Tree.Records
import Dossier.Proofs.Tree.Tidying
