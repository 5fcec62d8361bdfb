import LogicCapture.Trigger.Recipe
import LogicCapture.Image.Stimulus
import LogicCapture.Capture.Library
import LogicCapture.Capture.Table
import LogicCapture.Link.Recorded
import LogicCapture.Link.Script
import LogicCapture.Analyser.Acquisition
import LogicCapture.Analyser.Handle
import LogicCapture.Serial.Link
import LogicCapture.Serial.Discovery
import LogicCapture.Proofs.Actions
import LogicCapture.Proofs.Image.Layout
import LogicCapture.Proofs.Image.WordBits
import LogicCapture.Proofs.Engine.Lookup
import LogicCapture.Proofs.MatchCounter.Orbit
import LogicCapture.Proofs.Trigger.TruthTable
import LogicCapture.Proofs.Image.Transposition
import LogicCapture.Proofs.Image.Faithful
import LogicCapture.Proofs.Link.Steady
import LogicCapture.Proofs.Session.Runs
import LogicCapture.Proofs.Session.Invariants
import LogicCapture.Proofs.Session.TransferBound
import LogicCapture.Proofs.Session.Reachable
import LogicCapture.Proofs.Link.Pieces
import LogicCapture.Proofs.Wire.ByteOrder
import LogicCapture.Proofs.Session.Configuration
import LogicCapture.Proofs.Wire.Samples
import LogicCapture.Proofs.Link.Replay
import LogicCapture.Proofs.Session.Moves
import LogicCapture.Proofs.Session.Transfers
import LogicCapture.Proofs.Session.Polling
import LogicCapture.Proofs.Session.ReadBack
import LogicCapture.Proofs.Session.Faults
import LogicCapture.Proofs.Session.Agreement
import LogicCapture.Proofs.Session.Readings
import LogicCapture.Proofs.Session.Ways
import LogicCapture.Proofs.Session.Stages
import LogicCapture.Proofs.Image.InPlace
import LogicCapture.Proofs.Trigger.Editing
import LogicCapture.Proofs.Wire.Message
import LogicCapture.Proofs.Session.Messages
import LogicCapture.Proofs.Text.Token
import LogicCapture.Proofs.Image.Testbench
import LogicCapture.Proofs.Image.CountPlanes
import LogicCapture.Proofs.Image.Locality
import LogicCapture.Proofs.Serial.Transfers
import LogicCapture.Proofs.Serial.Connecting
import LogicCapture.Proofs.Session.Retracing
import LogicCapture.Proofs.Serial.Fragments
import LogicCapture.Proofs.Serial.Acquisitions
import LogicCapture.Proofs.MatchCounter.Counts
import LogicCapture.Proofs.Trigger.Spelling
import LogicCapture.Proofs.Trigger.Recipes
import LogicCapture.Proofs.Serial.Sending
import LogicCapture.Proofs.Image.MatcherWords
import LogicCapture.Proofs.Serial.Receiving
import LogicCapture.Proofs.Serial.Deadline
import LogicCapture.Proofs.Session.StatusNoise
import LogicCapture.Proofs.Session.Following
import LogicCapture.Proofs.Image.CombinerWords
import LogicCapture.Proofs.Trigger.Listing
import LogicCapture.Proofs.Session.Mismatches
import LogicCapture.Proofs.Session.Probing
import LogicCapture.Proofs.Capture.Library
import LogicCapture.Proofs.Capture.Tables
import LogicCapture.Proofs.Image.Frame
import LogicCapture.Proofs.Session.Loading
