import Ntfs.Content.Stream

/-!
# Reading streams through a channel

Many streams are read by one party and used by another.  The reader puts its messages into a channel
that holds a bounded number of them, and waits while it is full; the consumer takes them out in the
order they were put in, and waits while it is empty.  The channel is closed when the reader is done.
`step` says what a party does if it can move, and nothing says which of the two moves next.
-/

namespace Ntfs.Content

def report (disk : Disk) (g : Geometry) (t : Table) (key : StreamKey) (id : Nat) : List Message :=
  messagesOf id (walkStream disk g t id key)

def Message.isLast : Message → Bool
  | .data _ _ => false
  | .done _ _ | .failed _ _ => true

/-- Who may move. -/
inductive Party where
  | reader
  | consumer
  deriving DecidableEq, Repr

/-- Where the reader, the channel and the consumer stand. -/
structure Exchange where
  /-- How many messages the channel holds. -/
  room : Nat
  /-- The records that are still to be read. -/
  waiting : List Nat
  /-- What the record being read has still to say. -/
  unsent : List Message
  /-- The messages in the channel, the oldest first. -/
  inFlight : List Message
  /-- Whether the reader has let go of the channel. -/
  closed : Bool
  /-- What the consumer took out, in order. -/
  received : List Message
  /-- Whether the consumer has let go of the channel. -/
  gone : Bool
  deriving DecidableEq, Repr

namespace Exchange

/-- The exchange before anyone has moved.  A channel has room for one message at least. -/
def start (capacity : Nat) (ids : List Nat) : Exchange where
  room := max capacity 1
  waiting := ids
  unsent := []
  inFlight := []
  closed := false
  received := []
  gone := false

/-- Put a message into the channel.  When nobody takes messages any more, content is dropped, and
the last message of a record ends the reading. -/
def send (s : Exchange) (m : Message) (rest : List Message) : Option Exchange :=
  if s.gone then
    if m.isLast then some { s with closed := true } else some { s with unsent := rest }
  else if s.inFlight.length < s.room then
    some { s with unsent := rest, inFlight := s.inFlight ++ [m] }
  else none

/-- The next move of the reader: the next message of the record being read, the next record, or the
end; none while the channel is full. -/
def readerStep (reportOf : Nat → List Message) (s : Exchange) : Option Exchange :=
  if s.closed then none
  else
    match s.unsent with
    | m :: rest => s.send m rest
    | [] =>
      match s.waiting with
      | id :: ids => some { s with waiting := ids, unsent := reportOf id }
      | [] => some { s with closed := true }

/-- The next move of the consumer: take a message out, or go when none will come; none while the
channel is empty but open. -/
def consumerStep (s : Exchange) : Option Exchange :=
  if s.gone then none
  else
    match s.inFlight with
    | m :: rest => some { s with inFlight := rest, received := s.received ++ [m] }
    | [] => if s.closed then some { s with gone := true } else none

def step (reportOf : Nat → List Message) : Party → Exchange → Option Exchange
  | .reader => readerStep reportOf
  | .consumer => consumerStep

/-- Let the parties move in the order of a schedule; none if one of them cannot. -/
def run (reportOf : Nat → List Message) : (schedule : List Party) → Exchange → Option Exchange
  | [], s => some s
  | p :: rest, s => (step reportOf p s).bind (run reportOf rest)

/-- Both parties have let go. -/
def isOver (s : Exchange) : Bool := s.closed && s.gone

end Exchange

end Ntfs.Content
