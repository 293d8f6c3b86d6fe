import Lexing.Main
import Lexing.Proofs.Input.Backlog
import Lexing.Proofs.Language.Tiling
import Lexing.Proofs.Lexicon.Ending
import Lexing.Proofs.Lexicon.Termination
import Lexing.Proofs.Scanner.Rewinding
import Lexing.Proofs.Input.Delivery
import Lexing.Proofs.Scanner.Evolution
import Lexing.Proofs.Lexicon.Pass
import Lexing.Proofs.Rule.Evolution
import Lexing.Proofs.Lexicon.Failure
import Lexing.Proofs.Language.Failure
import Lexing.Proofs.Rule.Line
import Lexing.Proofs.Lexicon.Line
import Lexing.Proofs.Language.Line
import Lexing.Proofs.Scanner.Decoding
import Lexing.Proofs.Token.Layout
import Lexing.Proofs.Rule.Decoding
import Lexing.Proofs.Language.Wire
import Lexing.Proofs.Lexicon.Hook
import Lexing.Proofs.Language.Semicolon
import Lexing.Proofs.Lexicon.Keeping
import Lexing.Proofs.Language.Comments
import Lexing.Proofs.Lexicon.Report
import Lexing.Proofs.Language.Report
import Lexing.Proofs.Scanner.Replay
import Lexing.Proofs.Rule.Replay
import Lexing.Proofs.Rule.NumeralReplay
import Lexing.Proofs.Lexicon.Replay
import Lexing.Proofs.Language.Relex
import Lexing.Proofs.Lexicon.Stall
import Lexing.Proofs.Rule.Literal
import Lexing.Proofs.Rule.NumeralLongest
import Lexing.Proofs.Rule.QuotationGrammar
import Lexing.Proofs.Input.Resynchronisation
import Lexing.Proofs.Language.Reads
import Lexing.Proofs.Rule.QuotationEnding
import Lexing.Proofs.Language.JsonString
import Lexing.Proofs.Language.Readability
import Lexing.Proofs.Lexicon.CommentEnding
import Lexing.Proofs.Rule.QuotationNesting
import Lexing.Proofs.Text.WellFormed
import Lexing.Proofs.Language.GoString
import Lexing.Proofs.Token.Table
