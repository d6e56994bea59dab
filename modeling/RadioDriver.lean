import RadioDriver.Advisory
import RadioDriver.Builtin
import RadioDriver.Builtin.DeviceClasses
import RadioDriver.Builtin.Dutch
import RadioDriver.Builtin.English
import RadioDriver.Builtin.Views
import RadioDriver.Command.Arguments
import RadioDriver.Command.Run
import RadioDriver.Compiler
import RadioDriver.Compiler.Error
import RadioDriver.Compiler.Options
import RadioDriver.Decimal.Double
import RadioDriver.Decimal.Layout
import RadioDriver.Decimal.Shortest
import RadioDriver.Device.Assembly
import RadioDriver.Device.Assignment
import RadioDriver.Device.Pairing
import RadioDriver.Digest.Sha256
import RadioDriver.Disk.Basic
import RadioDriver.Disk.ConfigFile
import RadioDriver.Disk.Error
import RadioDriver.Disk.Files
import RadioDriver.Disk.OsError
import RadioDriver.Disk.StagedWrites
import RadioDriver.Disk.Tree
import RadioDriver.Fragment
import RadioDriver.Inherit.DeviceClass
import RadioDriver.Inherit.Pool
import RadioDriver.Inherit.Resolver
import RadioDriver.Inherit.View
import RadioDriver.Json.Basic
import RadioDriver.Json.Canonical
import RadioDriver.Json.Fields
import RadioDriver.Json.Printer
import RadioDriver.Json.Reader
import RadioDriver.Locale.Backfill
import RadioDriver.Locale.Catalog
import RadioDriver.Locale.Error
import RadioDriver.Locale.KeyPath
import RadioDriver.Locale.Store
import RadioDriver.Locale.Table
import RadioDriver.Main
import RadioDriver.Manifest
import RadioDriver.Path.Anchor
import RadioDriver.Path.Between
import RadioDriver.Path.Entry
import RadioDriver.Path.Join
import RadioDriver.Proofs.Command.Leftovers
import RadioDriver.Proofs.Command.Reading
import RadioDriver.Proofs.Compiler.Atomicity
import RadioDriver.Proofs.Compiler.Builtins
import RadioDriver.Proofs.Compiler.Outcome
import RadioDriver.Proofs.Compiler.Past
import RadioDriver.Proofs.Compiler.References
import RadioDriver.Proofs.Disk.Commit
import RadioDriver.Proofs.Disk.Directory
import RadioDriver.Proofs.Disk.FileMap
import RadioDriver.Proofs.Disk.Frame
import RadioDriver.Proofs.Disk.Leftovers
import RadioDriver.Proofs.Disk.Reaching
import RadioDriver.Proofs.Disk.Replacing
import RadioDriver.Proofs.Disk.Swap
import RadioDriver.Proofs.Disk.Undo
import RadioDriver.Proofs.Inherit.Descriptors
import RadioDriver.Proofs.Inherit.FlatFold
import RadioDriver.Proofs.Inherit.Generations
import RadioDriver.Proofs.Inherit.Lineage
import RadioDriver.Proofs.Inherit.Memory
import RadioDriver.Proofs.Inherit.Resolvable
import RadioDriver.Proofs.Inherit.Session
import RadioDriver.Proofs.Inherit.Sources
import RadioDriver.Proofs.Json.Alike
import RadioDriver.Proofs.Json.Distinct
import RadioDriver.Proofs.Json.Fields
import RadioDriver.Proofs.Json.RoundTrip
import RadioDriver.Proofs.Json.Unambiguous
import RadioDriver.Proofs.Locale.Backfill
import RadioDriver.Proofs.Locale.Clean
import RadioDriver.Proofs.Locale.Editing
import RadioDriver.Proofs.Locale.Files
import RadioDriver.Proofs.Locale.Filling
import RadioDriver.Proofs.Locale.Leaves
import RadioDriver.Proofs.Locale.Marks
import RadioDriver.Proofs.Locale.Persistence
import RadioDriver.Proofs.Locale.Placement
import RadioDriver.Proofs.Locale.Readable
import RadioDriver.Proofs.Locale.Refilling
import RadioDriver.Proofs.Locale.Table
import RadioDriver.Proofs.Path.Anchoring
import RadioDriver.Proofs.Path.Components
import RadioDriver.Proofs.Path.Joining
import RadioDriver.Proofs.Settings.Accepted
import RadioDriver.Proofs.Signal.Content
import RadioDriver.Proofs.Signal.Identity
import RadioDriver.Proofs.Signal.Index
import RadioDriver.Proofs.Signal.Runs
import RadioDriver.Proofs.Text.Pieces
import RadioDriver.Report
import RadioDriver.Settings.Effective
import RadioDriver.Settings.Error
import RadioDriver.Settings.Merge
import RadioDriver.Settings.Radio
import RadioDriver.Settings.Sources
import RadioDriver.Signal.Commands
import RadioDriver.Signal.Content
import RadioDriver.Signal.Error
import RadioDriver.Signal.Listing
import RadioDriver.Signal.Registry
import RadioDriver.Text.Pieces
import RadioDriver.Text.Printable
import RadioDriver.Text.Quoted
import RadioDriver.Text.Sorted
import RadioDriver.Text.Units
import RadioDriver.Text.Utf8
import RadioDriver.Toml.Document
import RadioDriver.Toml.Lexeme
import RadioDriver.Toml.Moment
import RadioDriver.Toml.Numeral
import RadioDriver.Toml.Reader
import RadioDriver.Proofs.Compiler.Resolution
import RadioDriver.Proofs.Compiler.Records
import RadioDriver.Proofs.Signal.Entries
import RadioDriver.Proofs.Compiler.Signals
import RadioDriver.Proofs.Inherit.Texts
import RadioDriver.Proofs.Locale.Unmarked
import RadioDriver.Proofs.Builtin.Unmarked
import RadioDriver.Proofs.Locale.KeyPaths
import RadioDriver.Proofs.Signal.Unmarked
import RadioDriver.Proofs.Device.Kept
import RadioDriver.Proofs.Device.Unmarked
import RadioDriver.Proofs.Fragment.Unmarked
import RadioDriver.Proofs.Compiler.Unmarked
import RadioDriver.Proofs.Inherit.ViewFold
import RadioDriver.Proofs.Device.Pairing
import RadioDriver.Proofs.Signal.Flattening
import RadioDriver.Proofs.Signal.KeyReading
import RadioDriver.Proofs.Settings.Precedence
import RadioDriver.Proofs.Locale.InPlace
import RadioDriver.Proofs.Path.Normal
import RadioDriver.Proofs.Path.Composing
import RadioDriver.Proofs.Path.Leading
import RadioDriver.Proofs.Command.Base
import RadioDriver.Proofs.Inherit.Detached
import RadioDriver.Proofs.Locale.Decoding
import RadioDriver.Proofs.Locale.Merging
import RadioDriver.Proofs.Json.Places
import RadioDriver.Proofs.Path.Faults
import RadioDriver.Proofs.Fragment.Splitting
import RadioDriver.Proofs.Inherit.Settled
import RadioDriver.Proofs.Inherit.Redeclared
import RadioDriver.Proofs.Compiler.Redeclared
