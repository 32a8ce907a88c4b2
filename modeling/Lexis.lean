import Lexis.CharClass
import Lexis.Lexer
import Lexis.Run
import Lexis.Session
import Lexis.Proofs.Agreement
import Lexis.Proofs.Answers
import Lexis.Proofs.AnyState
import Lexis.Proofs.Appending
import Lexis.Proofs.BackslashRuns
import Lexis.Proofs.CorrectPrefix
import Lexis.Proofs.CursorFront
import Lexis.Proofs.Diagnosis
import Lexis.Proofs.DirectReads
import Lexis.Proofs.Draining
import Lexis.Proofs.Effects
import Lexis.Proofs.Histories
import Lexis.Proofs.LineByLine
import Lexis.Proofs.Lines
import Lexis.Proofs.Matching
import Lexis.Proofs.MissingNames
import Lexis.Proofs.Munch
import Lexis.Proofs.PositionSuffix
import Lexis.Proofs.Positions
import Lexis.Proofs.Relocation
import Lexis.Proofs.Renaming
import Lexis.Proofs.Respacing
import Lexis.Proofs.Restart
import Lexis.Proofs.Runs
import Lexis.Proofs.Spans
import Lexis.Proofs.TemplateGrammar
import Lexis.Proofs.Writing
