import SchemaMigration.Main
import SchemaMigration.Proofs.Sql.Change
import SchemaMigration.Proofs.Sql.Independence
import SchemaMigration.Proofs.Sql.Session
import SchemaMigration.Proofs.Store.VersionTable
import SchemaMigration.Proofs.Store.Record
import SchemaMigration.Proofs.Plan.Slice
import SchemaMigration.Proofs.Store.Body
import SchemaMigration.Proofs.Store.Furnishing
import SchemaMigration.Proofs.Migrator.Perform
import SchemaMigration.Proofs.Migrator.Step
import SchemaMigration.Proofs.Migrator.Interruption
import SchemaMigration.Proofs.Migrator.History
import SchemaMigration.Proofs.Migrator.Cursor
import SchemaMigration.Proofs.Migrator.Reversal
import SchemaMigration.Proofs.Sql.Undoing
import SchemaMigration.Proofs.Migrator.Failure
import SchemaMigration.Proofs.DatabaseUrl
import SchemaMigration.Proofs.SourceUrl
import SchemaMigration.Proofs.SourceDirectory
import SchemaMigration.Proofs.HostUrl
import SchemaMigration.Proofs.Command.Report
import SchemaMigration.Proofs.Command.Separate
import SchemaMigration.Proofs.Migrator.Modes
import SchemaMigration.Proofs.Migrator.Repetition
import SchemaMigration.Proofs.Command.Options
import SchemaMigration.Proofs.Source.Scan
import SchemaMigration.Proofs.DatabaseUrl.Request
import SchemaMigration.Proofs.Store.Sharing
import SchemaMigration.Proofs.Migrator.Bounds
import SchemaMigration.Proofs.Command.Untouched
import SchemaMigration.Proofs.Command.Home
