import NpuAttribution.Api.Containerd
import NpuAttribution.Api.Cri
import NpuAttribution.Api.Isulad
import NpuAttribution.Config.Options
import NpuAttribution.Descriptor.Attribution
import NpuAttribution.Descriptor.InspectOutput
import NpuAttribution.Device.CgroupRule
import NpuAttribution.Device.Majors
import NpuAttribution.Device.Mapping
import NpuAttribution.Device.VisibleDevices
import NpuAttribution.Main
import NpuAttribution.Monitor
import NpuAttribution.Poll.Schedule.Owner
import NpuAttribution.Runtime.Client
import NpuAttribution.Poll.Run
import NpuAttribution.Proofs.Poll.Runs
import NpuAttribution.Proofs.Poll.Transitions
import NpuAttribution.Proofs.Poll.Permits
import NpuAttribution.Proofs.Poll.Milestones
import NpuAttribution.Proofs.Poll.Origin
import NpuAttribution.Proofs.Poll.Reports
import NpuAttribution.Proofs.Poll.Progress
import NpuAttribution.Proofs.Poll.Collection
import NpuAttribution.Proofs.SortedMap
import NpuAttribution.Proofs.Poll.Snapshots
import NpuAttribution.Proofs.Poll.Endings
import NpuAttribution.Proofs.Poll.Fetches
import NpuAttribution.Proofs.Poll.ClientFetches
import NpuAttribution.Proofs.Poll.Schedules
import NpuAttribution.Proofs.Runtime.Connections
import NpuAttribution.Proofs.Session
import NpuAttribution.Poll.Traffic
import NpuAttribution.Proofs.Poll.Traffic
import NpuAttribution.Proofs.Poll.Order
import NpuAttribution.Proofs.Poll.Outcomes
import NpuAttribution.Proofs.Poll.Conservation
import NpuAttribution.Proofs.Poll.ErrorQueue
import NpuAttribution.Proofs.Poll.ErrorAccounts
import NpuAttribution.Proofs.Json.Extension
import NpuAttribution.Proofs.Descriptor.InspectOutput
import NpuAttribution.Proofs.Poll.Concurrency
import NpuAttribution.Wire.Row
import NpuAttribution.Proofs.Wire.Contents
import NpuAttribution.Proofs.Wire.Rows
import NpuAttribution.Proofs.Wire.Compatibility
import NpuAttribution.Wire.Writing
import NpuAttribution.Proofs.Wire.Values
import NpuAttribution.Proofs.Wire.RoundTrip
import NpuAttribution.Poll.Timetable
import NpuAttribution.Proofs.Poll.Timetable
import NpuAttribution.Proofs.Poll.Thread
import NpuAttribution.Proofs.Poll.Punctuality
import NpuAttribution.Proofs.Poll.WorkerTurn
import NpuAttribution.Proofs.Poll.CycleTurn
import NpuAttribution.Proofs.Poll.Clock
import NpuAttribution.Proofs.Poll.Dispatch
import NpuAttribution.Proofs.Poll.Deadline
import NpuAttribution.Proofs.Text.Numeral
import NpuAttribution.Device.Registry
import NpuAttribution.Proofs.Device.Registry
import NpuAttribution.Proofs.Config.Endpoint
import NpuAttribution.Proofs.Config.Options
import NpuAttribution.Text.Decimal
import NpuAttribution.Json.Tree
import NpuAttribution.Json.Meaning
import NpuAttribution.Proofs.Json.Strings
import NpuAttribution.Proofs.Json.Numbers
import NpuAttribution.Proofs.Json.Borders
import NpuAttribution.Proofs.Json.Skipping
import NpuAttribution.Proofs.Json.Sequences
import NpuAttribution.Proofs.Json.Reading
import NpuAttribution.Proofs.Json.Values
import NpuAttribution.Proofs.Descriptor.DirectReading
import NpuAttribution.Json.Spelling
import NpuAttribution.Proofs.Json.Spelling
import NpuAttribution.Descriptor.Spelling
import NpuAttribution.Proofs.Descriptor.Spelling
import NpuAttribution.Proofs.Text.Split
import NpuAttribution.Proofs.Text.Blank
import NpuAttribution.Proofs.Device.Entries
import NpuAttribution.Proofs.Device.VisibleDevices
import NpuAttribution.Proofs.Device.Rendering
import NpuAttribution.Proofs.Descriptor.Attribution
import NpuAttribution.Proofs.Device.Majors
import NpuAttribution.Proofs.Device.Selection
import NpuAttribution.Proofs.Device.Mapping
import NpuAttribution.Proofs.Device.CgroupRule
import NpuAttribution.Proofs.Descriptor.CgroupFallback
import NpuAttribution.Proofs.Json.Truncation
import NpuAttribution.Proofs.Descriptor.Truncation
import NpuAttribution.Proofs.Device.Expansion
import NpuAttribution.Proofs.Config.Path
import NpuAttribution.Proofs.Config.Backups
import NpuAttribution.Proofs.Runtime.Attempts
import NpuAttribution.Proofs.Session.Endpoints
