import ImportAtlas.ModuleStructure
import ImportAtlas.Specifier
import ImportAtlas.Path.Lemmas
import ImportAtlas.Leaf
import ImportAtlas.Config
import ImportAtlas.FileSystem.Memory
import ImportAtlas.Draft
import ImportAtlas.Exploration
import ImportAtlas.Walk
import ImportAtlas.Json.Printer
import ImportAtlas.Json.Reader
import ImportAtlas.Document.Writer
import ImportAtlas.Document.Decoder
import ImportAtlas.FileSystem.Disk
import ImportAtlas.Toml.Document
import ImportAtlas.Config.Environment
import ImportAtlas.Config.Load
import ImportAtlas.Command.Simulation
import ImportAtlas.Main
import ImportAtlas.Proofs.Findings
import ImportAtlas.Proofs.Draft
import ImportAtlas.Proofs.DepthFirst
import ImportAtlas.Proofs.Reachability
import ImportAtlas.Proofs.Survey
import ImportAtlas.Proofs.ByteOrder
import ImportAtlas.Proofs.Walk
import ImportAtlas.Proofs.ListingOrder
import ImportAtlas.Proofs.Mirror
import ImportAtlas.Proofs.Linking
import ImportAtlas.Proofs.Agreement
import ImportAtlas.Proofs.Subwalk
import ImportAtlas.Proofs.Entry
import ImportAtlas.Proofs.Relinking
import ImportAtlas.Proofs.AnalysisOrder
import ImportAtlas.Proofs.Components
import ImportAtlas.Proofs.Vendoring
import ImportAtlas.Proofs.Containment
import ImportAtlas.Proofs.Placement
import ImportAtlas.Proofs.Records
import ImportAtlas.Proofs.Omission
import ImportAtlas.Proofs.Narrowing
import ImportAtlas.Proofs.Tasks
import ImportAtlas.Proofs.Termination
import ImportAtlas.Proofs.Coincidence
import ImportAtlas.Proofs.Faults
import ImportAtlas.Proofs.Rereading
import ImportAtlas.Proofs.Below
import ImportAtlas.Proofs.Transport
import ImportAtlas.Proofs.Sites
import ImportAtlas.Proofs.Relocation
import ImportAtlas.Proofs.Footprint
import ImportAtlas.Proofs.Ledger
import ImportAtlas.Proofs.Missing
import ImportAtlas.Proofs.NormalForm
import ImportAtlas.Proofs.Reading
import ImportAtlas.Proofs.RoundTrip
import ImportAtlas.Proofs.Unambiguity
import ImportAtlas.Proofs.FirstMatch
import ImportAtlas.Proofs.Guards
import ImportAtlas.Proofs.Grouping
import ImportAtlas.Proofs.Interruption
import ImportAtlas.Proofs.ExportedNames
import ImportAtlas.Proofs.Extraction
import ImportAtlas.Proofs.Idempotence
import ImportAtlas.Proofs.SizeLimit
import ImportAtlas.Proofs.Verbosity
import ImportAtlas.Proofs.TomlKeys
import ImportAtlas.Proofs.Layering
import ImportAtlas.Proofs.Pairing
import ImportAtlas.Proofs.Labels
