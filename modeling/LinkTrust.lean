import LinkTrust.Agent
import LinkTrust.Backup
import LinkTrust.Document.Basic
import LinkTrust.Document.Format
import LinkTrust.Document.Transfer
import LinkTrust.Domain
import LinkTrust.Error
import LinkTrust.Event
import LinkTrust.Host
import LinkTrust.Installation
import LinkTrust.Json.Lexeme
import LinkTrust.Json.Printer
import LinkTrust.Json.Reader
import LinkTrust.Json.Value
import LinkTrust.Logging
import LinkTrust.Logging.Directive
import LinkTrust.Manifest
import LinkTrust.Pattern.Basic
import LinkTrust.Pattern.Reader
import LinkTrust.Platform
import LinkTrust.Policy
import LinkTrust.Proofs.Backup
import LinkTrust.Proofs.Collections
import LinkTrust.Proofs.Document.Agreement
import LinkTrust.Proofs.Document.Codec
import LinkTrust.Proofs.Document.Decoded
import LinkTrust.Proofs.Document.Torn
import LinkTrust.Proofs.Holdings
import LinkTrust.Proofs.Json.Beginnings
import LinkTrust.Proofs.Json.Lexing
import LinkTrust.Proofs.Json.Parsing
import LinkTrust.Proofs.Json.Reading
import LinkTrust.Proofs.Manifest
import LinkTrust.Proofs.Platform
import LinkTrust.Proofs.Presentation
import LinkTrust.Proofs.Record
import LinkTrust.Proofs.Registry.ActiveEntries
import LinkTrust.Proofs.Registry.Addressing
import LinkTrust.Proofs.Registry.Approval
import LinkTrust.Proofs.Registry.Arrivals
import LinkTrust.Proofs.Registry.Authorization
import LinkTrust.Proofs.Registry.Backups
import LinkTrust.Proofs.Registry.BootOrder
import LinkTrust.Proofs.Registry.Choices
import LinkTrust.Proofs.Registry.Coherence
import LinkTrust.Proofs.Registry.Convergence
import LinkTrust.Proofs.Registry.DeclaredHosts
import LinkTrust.Proofs.Registry.DeclaredVerdicts
import LinkTrust.Proofs.Registry.Draining
import LinkTrust.Proofs.Registry.Effect
import LinkTrust.Proofs.Registry.Faults
import LinkTrust.Proofs.Registry.Finality
import LinkTrust.Proofs.Registry.Forgetting
import LinkTrust.Proofs.Registry.Handover
import LinkTrust.Proofs.Registry.Interleaving
import LinkTrust.Proofs.Registry.Isolation
import LinkTrust.Proofs.Registry.KeptBackups
import LinkTrust.Proofs.Registry.Labels
import LinkTrust.Proofs.Registry.NewTokens
import LinkTrust.Proofs.Registry.Outcome
import LinkTrust.Proofs.Registry.Provenance
import LinkTrust.Proofs.Registry.Reboot
import LinkTrust.Proofs.Registry.Reinstall
import LinkTrust.Proofs.Registry.Reports
import LinkTrust.Proofs.Registry.Requests
import LinkTrust.Proofs.Registry.Resends
import LinkTrust.Proofs.Registry.Runs
import LinkTrust.Proofs.Registry.Snapshot
import LinkTrust.Proofs.Registry.UpgradeRows
import LinkTrust.Proofs.Registry.Upgrades
import LinkTrust.Proofs.Registry.VerifiedNames
import LinkTrust.Proofs.Registry.Waiting
import LinkTrust.Proofs.Registry.Writes
import LinkTrust.Proofs.Roster
import LinkTrust.Proofs.Stores
import LinkTrust.Proofs.Table
import LinkTrust.Proofs.Text.Blank
import LinkTrust.Proofs.Text.Decimal
import LinkTrust.Record
import LinkTrust.Registry.Basic
import LinkTrust.Registry.Call
import LinkTrust.Registry.Packages
import LinkTrust.Registry.Selections
import LinkTrust.Registry.Storage
import LinkTrust.Registry.Verification
import LinkTrust.Roster
import LinkTrust.Stores
import LinkTrust.Text.Alphanumeric
import LinkTrust.Text.Blank
import LinkTrust.Text.Decimal
import LinkTrust.Text.Hex
import LinkTrust.Text.Hidden
import LinkTrust.Text.Quoted
import LinkTrust.Text.Utf8
import LinkTrust.Token
import LinkTrust.Upgrade
import LinkTrust.Verdict
import LinkTrust.Version
