import TokenTape.Main
import TokenTape.Program.Encode
import TokenTape.Proofs.View
import TokenTape.Proofs.Structured
import TokenTape.Proofs.Refinement
import TokenTape.Proofs.Locality
import TokenTape.Proofs.Rounding
import TokenTape.Proofs.Counting
import TokenTape.Proofs.Creation
import TokenTape.Proofs.Composition
import TokenTape.Proofs.Decimals
import TokenTape.Proofs.TextFile
import TokenTape.Proofs.JsonText
import TokenTape.Proofs.ProgramFile
import TokenTape.Proofs.Frame
import TokenTape.Proofs.Format
import TokenTape.Proofs.Command
import TokenTape.Proofs.Noninterference
import TokenTape.Proofs.Contracts
import TokenTape.Proofs.Definedness
import TokenTape.Proofs.Termination
import TokenTape.Proofs.Markers
import TokenTape.Proofs.Branching
import TokenTape.Proofs.Headers
import TokenTape.Proofs.Calls
import TokenTape.Proofs.Nesting
import TokenTape.Proofs.Expressions
import TokenTape.Proofs.Search
import TokenTape.Proofs.Writes
import TokenTape.Proofs.Display
import TokenTape.Proofs.SinglePass
import TokenTape.Store.Request
import TokenTape.Proofs.Delivery
