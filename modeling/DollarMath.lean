import DollarMath.Main
import DollarMath.Proofs.Accounting
import DollarMath.Proofs.Balance
import DollarMath.Proofs.Command.Line
import DollarMath.Proofs.Command.Progress
import DollarMath.Proofs.Detection
import DollarMath.Proofs.DisplayedMatrix
import DollarMath.Proofs.Document
import DollarMath.Proofs.FailedWrite
import DollarMath.Proofs.Frame
import DollarMath.Proofs.FramedMatrix
import DollarMath.Proofs.Leftover
import DollarMath.Proofs.Length
import DollarMath.Proofs.LineBreak
import DollarMath.Proofs.Margin
import DollarMath.Proofs.Markup.Guard
import DollarMath.Proofs.Markup.Insertion
import DollarMath.Proofs.Markup.Offset
import DollarMath.Proofs.Markup.Reader
import DollarMath.Proofs.Markup.Rejoin
import DollarMath.Proofs.Markup.Repair
import DollarMath.Proofs.Pairing
import DollarMath.Proofs.Paragraph
import DollarMath.Proofs.Passage
import DollarMath.Proofs.Prose
import DollarMath.Proofs.Report
import DollarMath.Proofs.Service.Answer
import DollarMath.Proofs.Service.InputLimit
import DollarMath.Proofs.Service.Origin
import DollarMath.Proofs.Stability
import DollarMath.Proofs.Store
import DollarMath.Proofs.Succession
import DollarMath.Proofs.Surfaces
import DollarMath.Proofs.Text.Place
import DollarMath.Proofs.Text.Utf8
import DollarMath.Proofs.WrappedMatrix
import DollarMath.Service.Endpoint
import DollarMath.Service.Origin
