import WappPlanner.Lib.Dict
import WappPlanner.Domain.Models

/-! # The aggregator

`aggregation/aggregator.py`: one open bucket per client, closed by a message that comes too late, by
a timer tick or at shutdown. The id factory is a sequence of ids; `issued` counts the ids it has
given. -/

namespace WappPlanner.Aggregation

open WappPlanner.Domain.Models WappPlanner.Lib WappPlanner.Py.Text

/-- A request being accumulated. -/
structure OpenBucket where
  requestId : String
  clientId : String
  startedAt : Instant
  lastAt : Instant
  messages : List Message

/-- A closed bucket ready to enter the pipeline. -/
structure AggregatedRequest where
  requestId : String
  clientId : String
  startedAt : Instant
  lastAt : Instant
  messages : List Message

/-- The windows and the id factory. -/
structure AggregatorConfig where
  inactivitySeconds : ℤ
  maxDurationSeconds : ℤ
  idFactory : ℕ → String

/-- The open buckets by client, and how many ids were issued. -/
structure Aggregator where
  openBuckets : Dict String OpenBucket
  issued : ℕ

/-- `AggregatedRequest(**bucket.model_dump())`. -/
def OpenBucket.closed (bucket : OpenBucket) : AggregatedRequest :=
  ⟨bucket.requestId, bucket.clientId, bucket.startedAt, bucket.lastAt, bucket.messages⟩

/-- The message at the end of the bucket, numbered by its place. -/
def OpenBucket.append (bucket : OpenBucket) (message : Message) (now : Instant) : OpenBucket :=
  { bucket with
    messages := bucket.messages ++ [{ message with order := bucket.messages.length }]
    lastAt := now }

namespace AggregatorConfig

variable (cfg : AggregatorConfig)

def inactivity : ℤ := seconds cfg.inactivitySeconds

def maxDuration : ℤ := seconds cfg.maxDurationSeconds

/-- Inside both the inactivity and the maximum window. -/
def active (bucket : OpenBucket) (now : Instant) : Bool :=
  now - bucket.lastAt < cfg.inactivity && now - bucket.startedAt < cfg.maxDuration

end AggregatorConfig

namespace Aggregator

/-- A fresh aggregator that takes its ids from the `issued`-th on. -/
def fresh (issued : ℕ) : Aggregator := ⟨Dict.empty, issued⟩

variable (cfg : AggregatorConfig) (agg : Aggregator)

/-- Open a bucket for a client with its first message. -/
def startBucket (clientId : String) (message : Message) (now : Instant) : Aggregator :=
  let bucket : OpenBucket := ⟨cfg.idFactory agg.issued, clientId, now, now, []⟩
  ⟨agg.openBuckets.set clientId (bucket.append message now), agg.issued + 1⟩

/-- Pop the client's bucket. -/
def dropBucket (clientId : String) : Aggregator :=
  { agg with openBuckets := agg.openBuckets.erase clientId }

/-- Add a message to the client's bucket; the answer is the displaced request, if any. -/
def add (clientId : String) (message : Message) (now : Instant) :
    Option AggregatedRequest × Aggregator :=
  match agg.openBuckets.get clientId with
  | none => (none, agg.startBucket cfg clientId message now)
  | some bucket =>
    if cfg.active bucket now then
      (none, { agg with
        openBuckets := agg.openBuckets.set clientId (bucket.append message now) })
    else (some bucket.closed, (agg.dropBucket clientId).startBucket cfg clientId message now)

/-- The buckets that are no longer active, in order. -/
def due (now : Instant) : List (String × OpenBucket) :=
  agg.openBuckets.entries.filter fun e => !cfg.active e.2 now

/-- Close and return every bucket that is no longer active. -/
def flushDue (now : Instant) : List AggregatedRequest × Aggregator :=
  ((agg.due cfg now).map fun e => e.2.closed,
    (agg.due cfg now).foldl (fun agg e => agg.dropBucket e.1) agg)

/-- Close and return every open bucket. -/
def flushAll : List AggregatedRequest × Aggregator :=
  (agg.openBuckets.entries.map fun e => e.2.closed,
    agg.openBuckets.entries.foldl (fun agg e => agg.dropBucket e.1) agg)

/-- Snapshot of the open buckets. -/
def exportState : List OpenBucket := agg.openBuckets.values

/-- Restore open buckets, each under its client id. -/
def loadState (buckets : List OpenBucket) : Aggregator :=
  { agg with
    openBuckets := buckets.foldl (fun d bucket => d.set bucket.clientId bucket) Dict.empty }

end Aggregator

end WappPlanner.Aggregation
