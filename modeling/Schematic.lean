import Schematic.Diagram.Markup
import Schematic.Document.Classify
import Schematic.Document.Load
import Schematic.Document.Parse
import Schematic.Document.Validation
import Schematic.Drawing.Generate
import Schematic.Hcl.Configuration
import Schematic.Json.Reader
import Schematic.Json.Writer
import Schematic.Proofs.Diagram.Canonical
import Schematic.Proofs.Diagram.Interleaved
import Schematic.Proofs.Diagram.Reading
import Schematic.Proofs.Document.Answer
import Schematic.Proofs.Document.Consistent
import Schematic.Proofs.Document.Detection
import Schematic.Proofs.Document.Marker
import Schematic.Proofs.Document.Plain
import Schematic.Proofs.Document.Recognised
import Schematic.Proofs.Drawing.Closed
import Schematic.Proofs.Drawing.Connected
import Schematic.Proofs.Drawing.Declared
import Schematic.Proofs.Drawing.Dependency
import Schematic.Proofs.Drawing.Described
import Schematic.Proofs.Drawing.Literal
import Schematic.Proofs.Drawing.Namespaces
import Schematic.Proofs.Drawing.Nodes
import Schematic.Proofs.Drawing.Sound
import Schematic.Proofs.Drawing.Template
import Schematic.Proofs.Hcl.Blocks
import Schematic.Proofs.Hcl.Comment
import Schematic.Proofs.Hcl.Enclosed
import Schematic.Proofs.Hcl.Extracted
import Schematic.Proofs.Hcl.Heading
import Schematic.Proofs.Hcl.Listed
import Schematic.Proofs.Hcl.Normal
import Schematic.Proofs.Hcl.Opening
import Schematic.Proofs.Hcl.Outermost
import Schematic.Proofs.Hcl.RoundTrip
import Schematic.Proofs.Hcl.Scan
import Schematic.Proofs.Hcl.Standalone
import Schematic.Proofs.Service.Agreement
import Schematic.Proofs.Service.Render
import Schematic.Proofs.Service.Run
import Schematic.Proofs.Text.Interpolation
import Schematic.Proofs.Yaml.ShortForm
import Schematic.Service.Example
import Schematic.Service.Options
import Schematic.Service.Render
import Schematic.Service.Service
import Schematic.Yaml.Reader
