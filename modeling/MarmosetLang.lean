import MarmosetLang.Main
import MarmosetLang.Proofs.Command.Checking
import MarmosetLang.Proofs.Evaluation.Arithmetic
import MarmosetLang.Proofs.Evaluation.Cleanness
import MarmosetLang.Proofs.Evaluation.Finishing
import MarmosetLang.Proofs.Evaluation.HashEntries
import MarmosetLang.Proofs.Evaluation.History
import MarmosetLang.Proofs.Evaluation.Propagation
import MarmosetLang.Proofs.Evaluation.ReadingBack
import MarmosetLang.Proofs.Evaluation.RowSums
import MarmosetLang.Proofs.Evaluation.Words
import MarmosetLang.Proofs.Grammar.Exactness
import MarmosetLang.Proofs.Grammar.Foresight
import MarmosetLang.Proofs.Grammar.Order
import MarmosetLang.Proofs.Grammar.Rendering
import MarmosetLang.Proofs.Grammar.Spine
import MarmosetLang.Proofs.Grammar.Termination
import MarmosetLang.Proofs.Session.Counting
import MarmosetLang.Proofs.Session.Layout
import MarmosetLang.Proofs.Session.Pointing
import MarmosetLang.Proofs.Token.Partition
import MarmosetLang.Proofs.Token.Spacing
import MarmosetLang.Proofs.Value.Comparison
import MarmosetLang.Proofs.Value.Separation
