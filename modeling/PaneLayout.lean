import PaneLayout.EventPump
import PaneLayout.Host.Queued
import PaneLayout.Layout.File
import PaneLayout.Log.Logger
import PaneLayout.Proofs.Host
import PaneLayout.Proofs.Scene
import PaneLayout.Proofs.Tree.Numbering
import PaneLayout.Settings.File
import PaneLayout.Proofs.SingleFlight
import PaneLayout.Proofs.Seating
import PaneLayout.Proofs.Succession
import PaneLayout.Proofs.Playback
import PaneLayout.Proofs.Execution
import PaneLayout.Proofs.Rest
import PaneLayout.Proofs.Resumption
import PaneLayout.Proofs.Tree.OneWay
import PaneLayout.Proofs.Completion
import PaneLayout.Proofs.Sharing
import PaneLayout.Proofs.Request.Search
import PaneLayout.Proofs.Noise
import PaneLayout.Proofs.Reconfiguration
import PaneLayout.Proofs.Text.Stripping
import PaneLayout.Proofs.Text.ControlWord
import PaneLayout.Proofs.Json.Literal
import PaneLayout.Proofs.Json.RoundTrip
import PaneLayout.Proofs.Layout.RoundTrip
import PaneLayout.Proofs.Json.Tokens
import PaneLayout.Proofs.Layout.Texts
import PaneLayout.Proofs.Request.Rendering
import PaneLayout.Proofs.Request.Decoration
import PaneLayout.Proofs.Json.Consumption
import PaneLayout.Proofs.Layout.Consumption
import PaneLayout.Proofs.Text.EightBit
import PaneLayout.Proofs.Request.Return
import PaneLayout.Proofs.Tree.Census
import PaneLayout.Proofs.Layout.Places
import PaneLayout.Proofs.Diagnosis
import PaneLayout.Proofs.Pump
import PaneLayout.Proofs.Json.WholeNumber
import PaneLayout.Proofs.Json.Canonical
import PaneLayout.Proofs.Layout.Canonical
import PaneLayout.Proofs.Tree.Renumbering
import PaneLayout.Proofs.Chronicle
import PaneLayout.Proofs.Replacement
import PaneLayout.Proofs.Json.Balance
import PaneLayout.Proofs.Json.Cursor
import PaneLayout.Proofs.Layout.Reading
import PaneLayout.Proofs.Layout.Balance
import PaneLayout.Proofs.Request.Arrival
import PaneLayout.Proofs.Text.Backtracking
import PaneLayout.Proofs.Text.LongestWord
import PaneLayout.Proofs.Settings.EntryNames
import PaneLayout.Proofs.Yaml.Lines
import PaneLayout.Proofs.Yaml.Mapping
import PaneLayout.Proofs.Settings.Rows
import PaneLayout.Proofs.Settings.PartialFiles
import PaneLayout.Proofs.Yaml.Quoted
import PaneLayout.Proofs.Yaml.Blocks
import PaneLayout.Proofs.Yaml.Written
import PaneLayout.Proofs.Settings.RoundTrip
import PaneLayout.Proofs.Tree.Refusal
import PaneLayout.Proofs.Log.Thresholds
import PaneLayout.Proofs.Json.Steps
import PaneLayout.Proofs.Json.Lookahead
import PaneLayout.Proofs.Json.Wrapping
import PaneLayout.Proofs.Request.Wrapping
