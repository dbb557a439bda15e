import BrokerAccess.Main
import BrokerAccess.Shutdown
import BrokerAccess.Proofs.Text.Fields
import BrokerAccess.Proofs.Text.Base64
import BrokerAccess.Proofs.Text.Utf8
import BrokerAccess.Proofs.Text.Decimal
import BrokerAccess.Proofs.Toml.Quoted
import BrokerAccess.Proofs.Toml.Statement
import BrokerAccess.Proofs.Toml.Assembly
import BrokerAccess.Proofs.Record.WellFormed
import BrokerAccess.Proofs.Record.Document
import BrokerAccess.Proofs.Record.File
import BrokerAccess.Proofs.Record.Growth
import BrokerAccess.Proofs.Template
import BrokerAccess.Proofs.Template.Escaping
import BrokerAccess.Proofs.Password.Cache
import BrokerAccess.Proofs.Password.History
import BrokerAccess.Proofs.Password.Recency
import BrokerAccess.Proofs.Password.Verifier
import BrokerAccess.Proofs.Password.Derivations
import BrokerAccess.Proofs.Password.Encoding
import BrokerAccess.Proofs.Password.Chain
import BrokerAccess.Proofs.Files.Tree
import BrokerAccess.Proofs.Files.Closed
import BrokerAccess.Proofs.Archive
import BrokerAccess.Proofs.Store.Reload
import BrokerAccess.Proofs.Store.Run
import BrokerAccess.Proofs.Store.Updates
import BrokerAccess.Proofs.Store.Again
import BrokerAccess.Proofs.Store.Notices
import BrokerAccess.Proofs.Directory
import BrokerAccess.Proofs.Grants
import BrokerAccess.Proofs.Decision
import BrokerAccess.Proofs.Gate
import BrokerAccess.Proofs.Deployment
import BrokerAccess.Proofs.Lookups
import BrokerAccess.Proofs.PlainPasswords
import BrokerAccess.Proofs.Record.Password
import BrokerAccess.Proofs.PasswordTool
import BrokerAccess.Proofs.Reloading.Failures
import BrokerAccess.Proofs.Wildcards
import BrokerAccess.Proofs.Interference
import BrokerAccess.Proofs.Store.Relocation
import BrokerAccess.Proofs.Reloading.Containment
import BrokerAccess.Proofs.Archive.Apart
import BrokerAccess.Proofs.Archive.Frame
import BrokerAccess.Proofs.Archive.Versions
import BrokerAccess.Proofs.Reloading.Timetable
import BrokerAccess.Proofs.Reloading.Cycles
import BrokerAccess.Proofs.Reloading.Interval
import BrokerAccess.Proofs.Toml.Edits
import BrokerAccess.Proofs.Record.Constraints
