import ExternalTable.Source.Basic
import ExternalTable.Remote.Script
import ExternalTable.Metrics.Scope
import ExternalTable.Proofs.Section
import ExternalTable.Proofs.Spelling
import ExternalTable.Proofs.Binding
import ExternalTable.Proofs.Exposure
import ExternalTable.Proofs.Cutting
import ExternalTable.Proofs.TopLevel
import ExternalTable.Proofs.Conjunction
import ExternalTable.Proofs.Readability
import ExternalTable.Proofs.Release
import ExternalTable.Proofs.Delivery
import ExternalTable.Proofs.Encoding
import ExternalTable.Proofs.BareName
import ExternalTable.Proofs.Grouping
import ExternalTable.Proofs.Opening
import ExternalTable.Proofs.Account
import ExternalTable.Proofs.Alignment
import ExternalTable.Proofs.Recovery
import ExternalTable.Proofs.Pulling
import ExternalTable.Proofs.Scale
import ExternalTable.Proofs.IdentifierQuote
import ExternalTable.Proofs.WrittenJson
import ExternalTable.Proofs.Masking
import ExternalTable.Proofs.ConnectDefaults
import ExternalTable.Proofs.Nesting
import ExternalTable.Proofs.Marker
import ExternalTable.Proofs.WholeDouble
import ExternalTable.Proofs.IntegerParameter
import ExternalTable.Proofs.Obstruction
import ExternalTable.Proofs.Token
import ExternalTable.Proofs.Rebinding
import ExternalTable.Proofs.Disjunction
import ExternalTable.Proofs.Quotation
import ExternalTable.Proofs.Projection
import ExternalTable.Proofs.Block
import ExternalTable.Proofs.IntegerColumn
import ExternalTable.Proofs.PlainDecimal
import ExternalTable.Proofs.CalendarText
import ExternalTable.Proofs.Report
import ExternalTable.Proofs.MirroredRequest
