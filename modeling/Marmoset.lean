import Marmoset.CommandLine
import Marmoset.Draft
import Marmoset.Main
import Marmoset.Proofs.Console.Chunks
import Marmoset.Proofs.Evaluation.Arithmetic
import Marmoset.Proofs.Evaluation.Checks
import Marmoset.Proofs.Evaluation.Frame
import Marmoset.Proofs.Evaluation.Identity
import Marmoset.Proofs.Evaluation.Limit
import Marmoset.Proofs.Evaluation.Lockstep
import Marmoset.Proofs.Evaluation.Maps
import Marmoset.Proofs.Evaluation.Markers
import Marmoset.Proofs.Evaluation.Regularity
import Marmoset.Proofs.Evaluation.Repetition
import Marmoset.Proofs.Evaluation.Resolution
import Marmoset.Proofs.Evaluation.Safety
import Marmoset.Proofs.Evaluation.Scoping
import Marmoset.Proofs.Grammar.Abreast
import Marmoset.Proofs.Grammar.Attempts
import Marmoset.Proofs.Grammar.Braces
import Marmoset.Proofs.Grammar.Completeness
import Marmoset.Proofs.Grammar.Locality
import Marmoset.Proofs.Grammar.Order
import Marmoset.Proofs.Grammar.Script
import Marmoset.Proofs.Grammar.Soundness
import Marmoset.Proofs.Grammar.Termination
import Marmoset.Proofs.Outline.Notices
import Marmoset.Proofs.Outline.Symbols
import Marmoset.Proofs.Session.Pieces
import Marmoset.Proofs.Token.Margin
import Marmoset.Proofs.Token.Quotes
import Marmoset.Proofs.Token.Writing
import Marmoset.Proofs.Tree.RoundTrip
import Marmoset.Proofs.Workspace.Consistency
import Marmoset.Proofs.Workspace.Scanning
import Marmoset.Tree.Shape
import Marmoset.Workspace.Server
