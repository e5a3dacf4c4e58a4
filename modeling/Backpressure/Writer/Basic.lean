import Backpressure.Buffer.Basic
import Backpressure.Channel.Basic

/-!
# Buffered writers

A writer is a channel in front of a buffer, with a pump that moves items from one to the other.
Closing it closes the channel, waits for the pump to move what is left, and shuts the buffer down;
a lock keeps a second close from overtaking the first.
-/

namespace Backpressure

/-- A channel whose items a pump moves into a buffer. -/
structure Writer (α : Type) where
  /-- The channel that writes go into. -/
  channel : Channel α
  /-- The buffer that gathers batches. -/
  buffer : Buffer α
  /-- Is a close holding the lock on the pump? -/
  locked : Bool
  /-- Has a close taken it upon itself to wait for the pump? -/
  claimed : Bool
  /-- Has the pump ended? -/
  pumpEnded : Bool

namespace Writer

variable {α : Type}

/-- A writer at its beginning. -/
def begin (channel : Channel α) (buffer : Buffer α) : Writer α :=
  { channel, buffer, locked := false, claimed := false, pumpEnded := false }

/-- A writer with these settings, once they are checked. -/
def ofConfig (config : WriterConfig) : Except Refusal (Writer α) := do
  config.validate.mapError .config
  return begin (← Channel.ofConfig config.channel) (← Buffer.ofConfig config.buffer)

/-- The writer as a record of its parts. -/
def shown (w : Writer α) : Text.Shown :=
  .record "BufferedWriter" [("channel", w.channel.shown), ("buffer", w.buffer.shown)]

end Writer

end Backpressure
