import HttpForms.Template.Basic
import HttpForms.Template.Parameters
import HttpForms.Multipart.Boundary
import HttpForms.Multipart.ContentType
import HttpForms.Multipart.Headers
import HttpForms.Multipart.Limits
import HttpForms.Multipart.Form
import HttpForms.Multipart.Plan
import HttpForms.Multipart.Writer
import HttpForms.Proofs.Reader.Invariants
import HttpForms.Proofs.Scanner.Portions
import HttpForms.Proofs.Scanner.Protocol
import HttpForms.Proofs.Scanner.Turns
import HttpForms.Proofs.Scanner.Record
import HttpForms.Proofs.Writer.RoundTrip
import HttpForms.Proofs.Writer.Forms
import HttpForms.Proofs.Template.Named
import HttpForms.Proofs.Reader.Rooms
import HttpForms.Proofs.Reader.Prompt
import HttpForms.Proofs.Reader.Agreement
import HttpForms.Proofs.Reader.Ending
import HttpForms.Proofs.Template.Segments
import HttpForms.Proofs.Template.Documents
import HttpForms.Proofs.Reader.Repeats
import HttpForms.Proofs.Reader.Nesting
import HttpForms.Proofs.Template.Rows
import HttpForms.Proofs.Template.Concatenation
import HttpForms.Proofs.Template.Origins
import HttpForms.Proofs.Headers.Normal
import HttpForms.Proofs.Scanner.Retention
import HttpForms.Proofs.Writer.Sinks
import HttpForms.Proofs.Headers.Lists
import HttpForms.Proofs.Template.Reprint
import HttpForms.Proofs.Scanner.Resumption
import HttpForms.Proofs.Scanner.Bounds
import HttpForms.Proofs.Headers.Positions
import HttpForms.Proofs.Template.Canonical
import HttpForms.Proofs.Template.Histories
