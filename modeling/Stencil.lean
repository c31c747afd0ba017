import Stencil.Main
import Stencil.Session
import Stencil.Proofs.Row.Basic
import Stencil.Proofs.Row.Block
import Stencil.Proofs.Run
import Stencil.Proofs.Seams
import Stencil.Proofs.Termination
import Stencil.Proofs.Row.Run
import Stencil.Proofs.Headers
import Stencil.Proofs.Balance
import Stencil.Proofs.Row.Shown
import Stencil.Proofs.References
import Stencil.Proofs.Totality
import Stencil.Proofs.Tree
import Stencil.Proofs.Meaning
import Stencil.Proofs.Independence
import Stencil.Proofs.Document
import Stencil.Proofs.Layout
import Stencil.Proofs.Encoding
import Stencil.Proofs.Delivery
import Stencil.Proofs.Grammar
import Stencil.Proofs.Inline
import Stencil.Proofs.Nesting
import Stencil.Proofs.Stability
import Stencil.Proofs.Scan
import Stencil.Proofs.Roundtrip
import Stencil.Proofs.Locating
import Stencil.Proofs.Conservation
import Stencil.Proofs.Origins
import Stencil.Proofs.Returns
import Stencil.Proofs.SingleLine
import Stencil.Proofs.Weaving
import Stencil.Proofs.BlankLines
import Stencil.Proofs.Partition
import Stencil.Proofs.Trimming
import Stencil.Proofs.Operators
import Stencil.Proofs.Rounding
import Stencil.Proofs.Overflow
import Stencil.Proofs.Comparing
import Stencil.Proofs.Spelling
import Stencil.Proofs.Decimals
import Stencil.Proofs.Locality
import Stencil.Proofs.Numerals
import Stencil.Proofs.Paths
import Stencil.Proofs.Literals
import Stencil.Proofs.Escapes
import Stencil.Proofs.Interchange
