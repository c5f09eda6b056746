import LetArith.Main
import LetArith.Parser.Action
import LetArith.Token.Cursor
import LetArith.Proofs.Rereading
import LetArith.Proofs.Agreement
import LetArith.Proofs.Segmentation
import LetArith.Proofs.Driving
import LetArith.Proofs.Concatenation
import LetArith.Proofs.Completeness
import LetArith.Proofs.DepthLimit
import LetArith.Proofs.IllegalCharacters
import LetArith.Proofs.Provenance
import LetArith.Proofs.Renderings
import LetArith.Proofs.Reports
import LetArith.Proofs.Failures
import LetArith.Proofs.Recovery
import LetArith.Proofs.Respelling
import LetArith.Proofs.Seams
import LetArith.Proofs.Registrations
import LetArith.Proofs.Positions
