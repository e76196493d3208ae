import StoreClient.Wire.Framing

/-!
# Reading responses from a stream

A reader collects the bytes of a stream until they hold a whole batch. The scan
runs over each byte once, and a batch is decoded once. Bytes behind a batch are
kept for the next read. After a failure the reader is as if nothing had arrived.
-/

namespace StoreClient

/-- What one read of a stream brings. -/
inductive Arrival where
  /-- The next bytes, or none of them at the end of the stream. -/
  | bytes (chunk : Bytes)
  /-- The read fails. -/
  | failure (kind : IoKind)
  deriving DecidableEq, Repr

/-- A reader of responses. -/
structure Reader where
  /-- The bytes that arrived and were not taken by a batch. -/
  buffer : Bytes
  /-- How far the buffer is known to be complete. -/
  scan : Scan
  /-- A reader gives up when it holds this many bytes of an incomplete batch. -/
  limit : Nat
  deriving DecidableEq, Repr

namespace Reader

/-- The limit of a reader that is given none. -/
def defaultLimit : Nat := 64 * 1024 * 1024

/-- A reader of which nothing has arrived. -/
def start (limit : Nat) : Reader := ⟨[], .start, limit⟩

/-- Forget the bytes that arrived. -/
def reset (reader : Reader) : Reader := start reader.limit

/-- A failed read with the complete entries that have arrived. -/
def abort (reader : Reader) (e : Error) : FailedRead := ⟨Batch.decodedEntries reader.buffer, e⟩

/-- What a reader makes of the bytes that arrived. -/
inductive Poll where
  | batch (entries : List Entry) (after : Reader)
  | failed (failure : FailedRead) (after : Reader)
  /-- More bytes are needed. -/
  | wanting (reader : Reader)

/-- Wait for more bytes unless the limit is reached. -/
def wait (reader : Reader) : Poll :=
  if reader.limit ≤ reader.buffer.length then
    .failed (reader.abort (.protocol (.responseTooLarge reader.limit))) reader.reset
  else .wanting reader

/-- Take the batch at the front of the buffer, if it is there as a whole. -/
def poll (reader : Reader) : Poll :=
  match reader.scan.advance reader.buffer with
  | (false, scan) => wait { reader with scan }
  | (true, _) =>
    match Batch.decode reader.buffer with
    | .complete entries size =>
      .batch entries { reader with buffer := reader.buffer.drop size, scan := .start }
    | .broken failure => .failed failure reader.reset
    | .incomplete => wait { reader with scan := .start }

/-- How a read ended. -/
inductive Outcome where
  | batch (entries : List Entry)
  | failed (failure : FailedRead)
  /-- The bytes do not make a batch, and no more of them arrive. -/
  | stalled
  deriving Repr

/-- A read with what it left: the reader and the arrivals that it did not take. -/
structure Step where
  outcome : Outcome
  reader : Reader
  arrivals : List Arrival
  deriving Repr

/-- The error of a stream that ends inside a batch. -/
def endOfStream : Error := .communication "connection closed by server" .unexpectedEof

/-- The error of a read that fails. -/
def readFailure (kind : IoKind) : Error := .communication "failed to read from conn" kind

/-- Read one batch. After the arrivals the stream either has ended or stays silent. -/
def read (reader : Reader) (ended : Bool) (arrivals : List Arrival) : Step :=
  match reader.poll with
  | .batch entries after => ⟨.batch entries, after, arrivals⟩
  | .failed failure after => ⟨.failed failure, after, arrivals⟩
  | .wanting reader =>
    match arrivals with
    | [] =>
      if ended then ⟨.failed (reader.abort endOfStream), reader.reset, []⟩
      else ⟨.stalled, reader, []⟩
    | .bytes [] :: rest => ⟨.failed (reader.abort endOfStream), reader.reset, rest⟩
    | .failure kind :: rest => ⟨.failed (reader.abort (readFailure kind)), reader.reset, rest⟩
    | .bytes chunk :: rest => read { reader with buffer := reader.buffer ++ chunk } ended rest

end Reader

end StoreClient
