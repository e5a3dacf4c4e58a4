import Backpressure.Time
import Backpressure.Time.Text
import Backpressure.Text.Ranges
import Backpressure.Text.Unprintable
import Backpressure.Text.Combining
import Backpressure.Text.Record
import Backpressure.Text.Quoted
import Backpressure.Log
import Backpressure.Monitor
import Backpressure.Simulation.World
import Backpressure.Simulation.Session
import Backpressure.Simulation.Schedule
import Backpressure.Simulation.Custody
import Backpressure.Value.Decimal
import Backpressure.Value
import Backpressure.Config.Basic
import Backpressure.Config.Decode
import Backpressure.Channel.Error
import Backpressure.Channel.Sideband
import Backpressure.Channel.Basic
import Backpressure.Channel.Monitor
import Backpressure.Channel.Script
import Backpressure.Buffer.Flush
import Backpressure.Buffer.Sink
import Backpressure.Buffer.Basic
import Backpressure.Buffer.Monitor
import Backpressure.Buffer.Script
import Backpressure.Bucket.Basic
import Backpressure.Bucket.Monitor
import Backpressure.Bucket.Script
import Backpressure.Writer.Basic
import Backpressure.Writer.Monitor
import Backpressure.Writer.Script
import Backpressure.Load
import Backpressure.LineBatch.Options
import Backpressure.LineBatch.Lines
import Backpressure.LineBatch.Monitor
import Backpressure.LineBatch.Run
import Backpressure.Main
import Backpressure.Proofs.Settings
import Backpressure.Proofs.Event
import Backpressure.Proofs.View
import Backpressure.Proofs.Waiting
import Backpressure.Proofs.History
import Backpressure.Proofs.Course
import Backpressure.Proofs.OwnSteps
import Backpressure.Proofs.Following
import Backpressure.Proofs.Part
import Backpressure.Proofs.Channel.Effect
import Backpressure.Proofs.Channel.Handoff
import Backpressure.Proofs.Channel.Waking
import Backpressure.Proofs.Buffer.Effect
import Backpressure.Proofs.Buffer.Ledger
import Backpressure.Proofs.Buffer.Conservation
import Backpressure.Proofs.Buffer.Shutdown
import Backpressure.Proofs.Buffer.Calls
import Backpressure.Proofs.Buffer.Progress
import Backpressure.Proofs.Buffer.Filling
import Backpressure.Proofs.Buffer.Completion
import Backpressure.Proofs.Buffer.Leftovers
import Backpressure.Proofs.Buffer.SingleFlight
import Backpressure.Proofs.Buffer.Flushers
import Backpressure.Proofs.Buffer.Dropping
import Backpressure.Proofs.Bucket.Effect
import Backpressure.Proofs.Bucket.Account
import Backpressure.Proofs.Bucket.Admission
import Backpressure.Proofs.Writer.Parts
import Backpressure.Proofs.Writer.Roles
import Backpressure.Proofs.Writer.Calls
import Backpressure.Proofs.Writer.Draining
import Backpressure.Proofs.Writer.Closing
import Backpressure.Proofs.Writer.Delivery
import Backpressure.Proofs.Channel.Closing
import Backpressure.Proofs.Writer.Backlog
import Backpressure.Proofs.Buffer.Chunks
import Backpressure.Proofs.Buffer.Waking
import Backpressure.Proofs.Writer.Batching
import Backpressure.Proofs.Writer.Manning
import Backpressure.Proofs.Writer.Progress
import Backpressure.Proofs.Writer.Serving
import Backpressure.Proofs.LineBatch.Parts
import Backpressure.Proofs.LineBatch.Shadow
import Backpressure.Proofs.LineBatch.Settings
import Backpressure.Proofs.LineBatch.Reading
import Backpressure.Proofs.LineBatch.Outcome
import Backpressure.Proofs.LineBatch.Printing
import Backpressure.Proofs.LineBatch.Progress
import Backpressure.Proofs.LineBatch.Scene
import Backpressure.Proofs.LineBatch.Schedule
import Backpressure.Proofs.Writer.Effort
import Backpressure.Proofs.LineBatch.Effort
import Backpressure.Proofs.LineBatch.Ending
import Backpressure.Proofs.Buffer.Statistics
import Backpressure.Proofs.Twins
import Backpressure.Proofs.Channel.Deadlines
import Backpressure.Proofs.Bucket.Windows
import Backpressure.Proofs.Bucket.Waits
import Backpressure.Proofs.Bucket.Waking
import Backpressure.Proofs.Bucket.Refusals
import Backpressure.Proofs.Bucket.Measuring
import Backpressure.Proofs.Buffer.Expiring
import Backpressure.Proofs.Buffer.Silence
import Backpressure.Proofs.Channel.Sideband
import Backpressure.Proofs.Channel.Lanes
import Backpressure.Proofs.Blinding
import Backpressure.Proofs.Buffer.Failures
import Backpressure.Proofs.Buffer.Segments
import Backpressure.Proofs.Buffer.Sequential
import Backpressure.Proofs.Config.Reading
import Backpressure.Proofs.Config.Making
import Backpressure.Proofs.Buffer.Rechecks
import Backpressure.Proofs.Bucket.WindowEnd
