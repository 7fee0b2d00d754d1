import Prebuilt.Catalog
import Prebuilt.Catalog.BuiltIn
import Prebuilt.Catalog.Listing
import Prebuilt.CommandLine.Request
import Prebuilt.CommandLine.Run
import Prebuilt.CommandLine.Survey
import Prebuilt.CommandLine.Verbosity
import Prebuilt.Decimal.Shortest
import Prebuilt.Disk
import Prebuilt.Event
import Prebuilt.Failure
import Prebuilt.FileSystem
import Prebuilt.Host
import Prebuilt.Host.Fixed
import Prebuilt.Host.Rehearsal
import Prebuilt.Installed
import Prebuilt.Json.Fault
import Prebuilt.Json.Number
import Prebuilt.Json.NumberValue
import Prebuilt.Json.Scan
import Prebuilt.Json.Skip
import Prebuilt.Json.Value
import Prebuilt.Machine
import Prebuilt.Main
import Prebuilt.Manifest
import Prebuilt.NativeHost
import Prebuilt.PackageName
import Prebuilt.Path
import Prebuilt.Platform
import Prebuilt.Resolution
import Prebuilt.Search
import Prebuilt.Target
import Prebuilt.Text.Concealed
import Prebuilt.Text.Quoted
import Prebuilt.Proofs.Walk
import Prebuilt.Proofs.Cache
import Prebuilt.Proofs.MachineRuns
import Prebuilt.Proofs.FirstPresent
import Prebuilt.Proofs.Grouping
import Prebuilt.Proofs.Selection
import Prebuilt.Proofs.Fallback
import Prebuilt.Proofs.Joining
import Prebuilt.Proofs.Reporting
import Prebuilt.Proofs.Transparency
import Prebuilt.Proofs.Naming
import Prebuilt.Proofs.Candidates
import Prebuilt.Proofs.TwoHosts
import Prebuilt.Proofs.PackageFaults
import Prebuilt.Proofs.Pieces
import Prebuilt.Proofs.Settings
import Prebuilt.Proofs.Arguments
import Prebuilt.Proofs.Commands
import Prebuilt.Proofs.Loudness
import Prebuilt.Proofs.JsonGrammar
import Prebuilt.Proofs.JsonStrings
import Prebuilt.Proofs.JsonSkipping
import Prebuilt.Proofs.ManifestReading
import Prebuilt.Proofs.ManifestMembers
import Prebuilt.Proofs.Flattening
import Prebuilt.Proofs.Rebuilding
import Prebuilt.Proofs.ShortIds
import Prebuilt.Proofs.RawNames
import Prebuilt.Proofs.Ascent
import Prebuilt.Proofs.Above
import Prebuilt.Proofs.LookingUp
import Prebuilt.Proofs.TargetNames
import Prebuilt.Proofs.DistinctPlaces
import Prebuilt.Proofs.LinkFree
import Prebuilt.Proofs.Nearness
import Prebuilt.Proofs.Rendering
import Prebuilt.Proofs.Quotations
import Prebuilt.Proofs.Messages
import Prebuilt.Proofs.Placement
import Prebuilt.Proofs.Logging
import Prebuilt.Proofs.JsonDecoding
import Prebuilt.Proofs.JsonWriting
