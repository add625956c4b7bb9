import Lexis.Main
import Lexis.Scan.Cursor
import Lexis.Proofs.Tiling
import Lexis.Proofs.MaximalMunch
import Lexis.Proofs.ErrorList
import Lexis.Proofs.Chunks
import Lexis.Proofs.CommentTokens
import Lexis.Proofs.LexerCalls
import Lexis.Proofs.Origins
import Lexis.Proofs.StringSpellings
import Lexis.Proofs.Rescan
import Lexis.Proofs.Utf8Forms
import Lexis.Proofs.Decoding
import Lexis.Proofs.LineTable
import Lexis.Proofs.CommandRuns
import Lexis.Proofs.Restart
import Lexis.Proofs.StringRecovery
import Lexis.Proofs.BlankComments
import Lexis.Proofs.Underlines
import Lexis.Proofs.NumberTokens
import Lexis.Proofs.QuotedMessages
import Lexis.Proofs.CarriageReturns
import Lexis.Proofs.DiagnosticBlocks
import Lexis.Proofs.CursorRuns
import Lexis.Proofs.TableColumns
import Lexis.Proofs.FloatTokens
import Lexis.Proofs.InitRuns
import Lexis.Proofs.PlaceOrder
