import SchemaDesign.Api.Service
import SchemaDesign.Api.Standard
import SchemaDesign.Document.Decode
import SchemaDesign.Document.Edit
import SchemaDesign.Document.Encode
import SchemaDesign.Export.Stamp
import SchemaDesign.Json.Printer
import SchemaDesign.Log.Step
import SchemaDesign.Proofs.Api.Session
import SchemaDesign.Proofs.Ddl.Batch
import SchemaDesign.Proofs.Ddl.Decomposition
import SchemaDesign.Proofs.Ddl.Interleaved
import SchemaDesign.Proofs.Ddl.LineComment
import SchemaDesign.Proofs.Ddl.OwnReference
import SchemaDesign.Proofs.Ddl.QuotedName
import SchemaDesign.Proofs.Ddl.Relaid
import SchemaDesign.Proofs.Document.Length
import SchemaDesign.Proofs.Document.RoundTrip
import SchemaDesign.Proofs.Export.Dangling
import SchemaDesign.Proofs.Export.FieldNames
import SchemaDesign.Proofs.Export.Header
import SchemaDesign.Proofs.Export.Identity
import SchemaDesign.Proofs.Export.Notes
import SchemaDesign.Proofs.Export.Renaming
import SchemaDesign.Proofs.Model.FieldNames
import SchemaDesign.Proofs.Model.KeyChoice
import SchemaDesign.Proofs.Sql.FixedPoint
import SchemaDesign.Proofs.Sql.RoundTrip
import SchemaDesign.Proofs.Store.Added
import SchemaDesign.Proofs.Store.Collision
import SchemaDesign.Proofs.Store.Deletion
import SchemaDesign.Proofs.Validation.Problems
