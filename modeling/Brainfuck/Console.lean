/-!
# Input and output

A `Console` is everything a program can talk to, as a value: what its reads will give (`script`),
how its sink answers writes and flushes, and the history of what happened.

* A read or write that is interrupted is tried again; interruptions change nothing else.
* A sink accepts bytes until it is full, and then refuses every write.  It may also refuse a write
  now and then, and accept the next one.
* Write and flush attempts are numbered from 0, each kind by itself, over the console's life.
-/

namespace Brainfuck

/-- The answer to one attempt to read. -/
inductive Reading
  | byte (b : UInt8)
  | endOfInput
  | interrupted
  | failed (cause : String)
deriving DecidableEq

/-- How a full sink answers a write. -/
inductive Refusal
  | failure (cause : String)
  /-- The write succeeds but takes no byte. -/
  | nothing
deriving DecidableEq

inductive Event
  | read (b : UInt8) | readEnd | readInterrupted | readFailed
  | wrote (b : UInt8) | wroteNothing | writeInterrupted | writeFailed
  | flushed | flushFailed
deriving DecidableEq

structure Sink where
  /-- How many bytes fit in all; `none` is no bound. -/
  capacity : Option Nat := none
  whenFull : Refusal := .failure "sink full"
  /-- Refusals of the coming bytes, one after the other, for which the sink need not be full. -/
  refusals : List (Option Refusal) := []
  /-- The write attempts that are interrupted. -/
  interruptedWrites : List Nat := []
  /-- The flush attempts that fail. -/
  failedFlushes : List Nat := []
  writes : Nat := 0
  flushes : Nat := 0
  stored : Array UInt8 := #[]
deriving DecidableEq

namespace Sink

def isFull (s : Sink) : Bool :=
  match s.capacity with
  | none => false
  | some capacity => capacity ≤ s.stored.size

/-- Why the next byte is refused, if it is. -/
def refusal? (s : Sink) : Option Refusal :=
  match s.refusals with
  | some refusal :: _ => some refusal
  | _ => if s.isFull then some s.whenFull else none

/-- How many of `n`, `n + 1`, … are in `marks` without a gap; `marks.length` bounds the count. -/
def streak (marks : List Nat) : Nat → Nat → Nat
  | 0, _ => 0
  | bound + 1, n => if n ∈ marks then streak marks bound (n + 1) + 1 else 0

/-- How often the next write is interrupted before the sink answers it. -/
def interruptions (s : Sink) : Nat :=
  streak s.interruptedWrites s.interruptedWrites.length s.writes

end Sink

structure Console where
  /-- The answers to the coming reads; after the last, every read is at the end of input. -/
  script : List Reading := []
  sink : Sink := {}
  history : Array Event := #[]
deriving DecidableEq

namespace Console

/-- Read one byte, or nothing at the end of input. -/
def read (c : Console) : Except String (Option UInt8) × Console :=
  go c.script c.sink c.history
where
  go : List Reading → Sink → Array Event → Except String (Option UInt8) × Console
    | [], sink, history => (.ok none, ⟨[], sink, history.push .readEnd⟩)
    | .endOfInput :: rest, sink, history => (.ok none, ⟨rest, sink, history.push .readEnd⟩)
    | .byte b :: rest, sink, history => (.ok (some b), ⟨rest, sink, history.push (.read b)⟩)
    | .failed cause :: rest, sink, history => (.error cause, ⟨rest, sink, history.push .readFailed⟩)
    | .interrupted :: rest, sink, history => go rest sink (history.push .readInterrupted)

/-- Write one byte.  Taking no byte counts as a failure. -/
def write (b : UInt8) : Console → Except String Unit × Console
  | ⟨script, sink, history⟩ =>
    let interruptions := sink.interruptions
    let refusal? := sink.refusal?
    let sink :=
      { sink with refusals := sink.refusals.tail, writes := sink.writes + interruptions + 1 }
    let history := history ++ Array.replicate interruptions .writeInterrupted
    match refusal? with
    | some (.failure cause) => (.error cause, ⟨script, sink, history.push .writeFailed⟩)
    | some .nothing =>
      (.error "failed to write whole buffer", ⟨script, sink, history.push .wroteNothing⟩)
    | none => (.ok (), ⟨script, { sink with stored := sink.stored.push b }, history.push (.wrote b)⟩)

def flush : Console → Except String Unit × Console
  | ⟨script, sink, history⟩ =>
    let failing := sink.flushes ∈ sink.failedFlushes
    let sink := { sink with flushes := sink.flushes + 1 }
    if failing then (.error "flush failed", ⟨script, sink, history.push .flushFailed⟩)
    else (.ok (), ⟨script, sink, history.push .flushed⟩)

end Console

end Brainfuck
