import QuantumScript.Main
import QuantumScript.Proofs.Parser.RoundTrip
import QuantumScript.Proofs.Parser.Sentence
import QuantumScript.Proofs.Run.Depth
import QuantumScript.Proofs.Run.Frame
import QuantumScript.Proofs.Run.Halting
import QuantumScript.Proofs.Run.Limit
import QuantumScript.Proofs.Run.Located
import QuantumScript.Proofs.Shell.Sitting
import QuantumScript.Proofs.Token.Misspelling
import QuantumScript.Proofs.Token.Place
import QuantumScript.Proofs.Value.Transitivity
import QuantumScript.Proofs.Parser.Failure
import QuantumScript.Proofs.Session.Layout
import QuantumScript.Proofs.Parser.ExprPoints
import QuantumScript.Proofs.Parser.ClausePoints
import QuantumScript.Proofs.Parser.FirstWrong
import QuantumScript.Proofs.Run.Growth
import QuantumScript.Proofs.Run.Openings
import QuantumScript.Proofs.Session.History
import QuantumScript.Proofs.Session.Report
import QuantumScript.Proofs.Creation.Spelling
import QuantumScript.Proofs.Creation.Join
import QuantumScript.Proofs.Run.Atomic
import QuantumScript.Proofs.Session.Renaming
import QuantumScript.Proofs.Store.Lookup
import QuantumScript.Proofs.Run.Unreached
import QuantumScript.Proofs.Value.Symmetry
import QuantumScript.Proofs.Value.Walk
import QuantumScript.Proofs.Token.Alone
import QuantumScript.Proofs.Native.Range
import QuantumScript.Proofs.Native.Spellings
import QuantumScript.Proofs.Token.Literal
import QuantumScript.Proofs.Parser.Assignment
import QuantumScript.Proofs.Creation.Document
import QuantumScript.Proofs.Parser.Nesting
import QuantumScript.Proofs.Cursor.Creation
