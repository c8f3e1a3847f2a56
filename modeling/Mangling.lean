import Mangling.CommandLine.Arguments
import Mangling.CommandLine.Session
import Mangling.Encoding.Builtin
import Mangling.Encoding.Name
import Mangling.Encoding.Parameter
import Mangling.Encoding.Qualifier
import Mangling.Encoding.Substitution
import Mangling.Fault
import Mangling.Main
import Mangling.Notice
import Mangling.Proofs.CommandLine.Batch
import Mangling.Proofs.Encoding.BaseType
import Mangling.Proofs.Encoding.Compression
import Mangling.Proofs.Encoding.Form
import Mangling.Proofs.Encoding.PlainParameter
import Mangling.Proofs.Encoding.PointerType
import Mangling.Proofs.Encoding.Search
import Mangling.Proofs.Encoding.Spelling
import Mangling.Proofs.Encoding.Widened
import Mangling.Proofs.Signature.Grammar
import Mangling.Proofs.Signature.Heading
import Mangling.Proofs.Signature.Rejected
import Mangling.Proofs.Signature.Rendered
import Mangling.Proofs.Signature.Runs
import Mangling.Proofs.Signature.Scanned
import Mangling.Proofs.Stream.LookAhead
import Mangling.Proofs.Symbol.Assembly
import Mangling.Proofs.Symbol.Backed
import Mangling.Proofs.Symbol.Candidates
import Mangling.Proofs.Symbol.Coherence
import Mangling.Proofs.Symbol.ConstantMember
import Mangling.Proofs.Symbol.Determined
import Mangling.Proofs.Symbol.EmptyParameters
import Mangling.Proofs.Symbol.Innermost
import Mangling.Proofs.Symbol.Layout
import Mangling.Proofs.Symbol.LeadingSeparator
import Mangling.Proofs.Symbol.Lossless
import Mangling.Proofs.Symbol.Notices
import Mangling.Proofs.Symbol.Outcome
import Mangling.Proofs.Symbol.OwnScopes
import Mangling.Proofs.Symbol.Path
import Mangling.Proofs.Symbol.Printed
import Mangling.Proofs.Symbol.Prototype
import Mangling.Proofs.Symbol.ReadBack
import Mangling.Proofs.Symbol.RoundTrip
import Mangling.Proofs.Symbol.TemplateArguments
import Mangling.Proofs.Symbol.TreeReader
import Mangling.Proofs.Symbol.Unambiguous
import Mangling.Proofs.Symbol.WrittenType
import Mangling.Proofs.Text.Erased
import Mangling.Proofs.Text.Joined
import Mangling.Proofs.Text.Tidy
import Mangling.Signature.Scan
import Mangling.Signature.Token
import Mangling.Stream.Cursor
import Mangling.Stream.Unread
import Mangling.Symbol.Demangle
import Mangling.Symbol.Draft
import Mangling.Symbol.Mangle
import Mangling.Symbol.Reader
import Mangling.Symbol.TypeTree
import Mangling.Text.Alphanumeric
import Mangling.Text.Basic
import Mangling.Text.Blank
import Mangling.Text.DecimalDigit
import Mangling.Text.Erase
import Mangling.Text.Numeral
import Mangling.Text.Printable
import Mangling.Text.Quoted
import Mangling.Text.Ranges
