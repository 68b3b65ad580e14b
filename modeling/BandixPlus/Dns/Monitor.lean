import BandixPlus.Common
import BandixPlus.Lib.Maps
import BandixPlus.Net.Addresses
import Mathlib.Data.List.DropRight

/-! # The DNS monitor

`dns.rs`, `DnsMonitor`: the records by id, their order of arrival, the queue of unanswered ids of each
match key, and the two caches that suppress duplicates seen on several interfaces. `ingest` takes one
parsed message; `restoreRecords` loads the records of an earlier run.

Times are nanoseconds or milliseconds in `ℕ`, so `saturating_sub` is `-`. `ingest` is given the
order in which the hash maps are iterated, which decides what `pruneDedupeCache` drops. -/

namespace BandixPlus.Dns.Monitor

open BandixPlus.Common BandixPlus.Lib.Maps BandixPlus.Net.Addresses

def queryDedupWindowNs : ℕ := 500000000
def responseDedupWindowNs : ℕ := 500000000
def maxQueryMatchAgeNs : ℕ := 30000000000

/-- `u64::MAX` and `usize::MAX`. -/
def u64Max : ℕ := 2 ^ 64 - 1

def toAsciiLowercase (s : String) : String := s.map Char.toLower
def toAsciiUppercase (s : String) : String := s.map Char.toUpper

structure DnsQueryRecord where
  timestamp : ℕ
  domain : String
  queryType : String
  responseCode : Option String
  responseTimeMs : Option ℕ
  sourceIp : String
  destinationIp : String
  sourcePort : UInt16
  destinationPort : UInt16
  transactionId : UInt16
  isQuery : Bool
  protocol : String
  responseIps : List String
  responseRecords : List String
  deviceMac : String
  deviceName : String
  iface : String

structure DnsMatchKey where
  clientIp : IpAddr
  clientPort : UInt16
  transactionId : UInt16
  domain : String
  queryType : String
  protocol : String
  deriving DecidableEq

structure TrackedQuery where
  observedNs : ℕ
  matchKey : DnsMatchKey
  record : DnsQueryRecord

structure ParsedDnsMessage where
  isQuery : Bool
  sourceIp : IpAddr
  destinationIp : IpAddr
  sourcePort : UInt16
  destinationPort : UInt16
  transactionId : UInt16
  domain : String
  queryType : String
  protocol : String
  responseCode : Option String
  responseIps : List String
  responseRecords : List String

def ParsedDnsMessage.clientIp (m : ParsedDnsMessage) : IpAddr :=
  if m.isQuery then m.sourceIp else m.destinationIp

def ParsedDnsMessage.clientPort (m : ParsedDnsMessage) : UInt16 :=
  if m.isQuery then m.sourcePort else m.destinationPort

def ParsedDnsMessage.matchKey (m : ParsedDnsMessage) : DnsMatchKey where
  clientIp := m.clientIp
  clientPort := m.clientPort
  transactionId := m.transactionId
  domain := toAsciiLowercase m.domain
  queryType := toAsciiUppercase m.queryType
  protocol := m.protocol

structure DeviceIdentity where
  mac : String
  name : String
  iface : String

structure DnsMonitor where
  maxRecords : ℕ
  maxRecords_pos : 1 ≤ maxRecords
  records : HashMap ℕ TrackedQuery
  order : List ℕ
  pending : HashMap DnsMatchKey (List ℕ)
  recentQueries : HashMap DnsMatchKey ℕ
  recentResponses : HashMap DnsMatchKey ℕ
  nextId : ℕ

def DnsMonitor.new (maxRecords : ℕ) : DnsMonitor where
  maxRecords := max maxRecords 1
  maxRecords_pos := le_max_right _ _
  records := ∅
  order := []
  pending := ∅
  recentQueries := ∅
  recentResponses := ∅
  nextId := 1

/-- `next_id.wrapping_add(1).max(1)`. -/
def followingId (id : ℕ) : ℕ := max ((id + 1) % 2 ^ 64) 1

/-- The key was seen less than `window` ago. -/
def seenWithin (cache : HashMap DnsMatchKey ℕ) (window : ℕ) (key : DnsMatchKey) (nowNs : ℕ) : Bool :=
  match cache.lookup key with
  | some last => decide (nowNs - last < window)
  | none => false

/-- Write a queue back, or drop its key if nothing is left. -/
def storeQueue (pending : HashMap DnsMatchKey (List ℕ)) (key : DnsMatchKey) (queue : List ℕ) :
    HashMap DnsMatchKey (List ℕ) :=
  if queue = [] then pending.erase key else pending.insert key queue

def evictOldest (m : DnsMonitor) : DnsMonitor :=
  match m.order with
  | [] => m
  | id :: order =>
    let m := { m with order }
    match m.records.lookup id with
    | none => m
    | some query =>
      let m := { m with records := m.records.erase id }
      if query.record.responseTimeMs.isNone then
        match m.pending.lookup query.matchKey with
        | none => m
        | some queue =>
          let queue := if queue.head? = some id then queue.tail else queue.filter (· ≠ id)
          { m with pending := storeQueue m.pending query.matchKey queue }
      else m

/-- `while self.records.len() > self.max_records`. Each round takes one id off `order`, whose length
is the fuel; with an empty `order` the source would not leave the loop. -/
def evictExcess : ℕ → DnsMonitor → DnsMonitor
  | 0, m => m
  | fuel + 1, m => if m.maxRecords < len m.records then evictExcess fuel (evictOldest m) else m

def pruneDedupeCache (o : IterOrder) (cache : HashMap DnsMatchKey ℕ) (nowNs windowNs maxEntries : ℕ) :
    HashMap DnsMatchKey ℕ :=
  if len cache ≤ maxEntries then cache
  else
    let cache := retain (fun _ seenNs => decide (nowNs - windowNs ≤ seenNs)) cache
    if maxEntries < len cache then keepFirst o maxEntries cache else cache

/-- The record a query message starts. -/
def queryRecord (message : ParsedDnsMessage) (timestampMs : ℕ) (device : DeviceIdentity) :
    DnsQueryRecord where
  timestamp := timestampMs
  domain := message.domain
  queryType := message.queryType
  responseCode := none
  responseTimeMs := none
  sourceIp := message.sourceIp.toString
  destinationIp := message.destinationIp.toString
  sourcePort := message.sourcePort
  destinationPort := message.destinationPort
  transactionId := message.transactionId
  isQuery := true
  protocol := message.protocol
  responseIps := []
  responseRecords := []
  deviceMac := device.mac
  deviceName := device.name
  iface := device.iface

/-- One captured message with what the reader knows about it. -/
structure Capture where
  message : ParsedDnsMessage
  header : DnsPacketHeader
  timestampMs : ℕ
  device : DeviceIdentity
  iter : IterOrder

def Capture.key (c : Capture) : DnsMatchKey := c.message.matchKey
def Capture.ns (c : Capture) : ℕ := c.header.timestampNs.toNat

/-- A query not suppressed as a duplicate: a new record, its id at the end of its queue. -/
def insertQuery (m : DnsMonitor) (c : Capture) : DnsMonitor :=
  let id := m.nextId
  { m with
    recentQueries := m.recentQueries.insert c.key c.ns
    nextId := followingId id
    records := m.records.insert id
      ⟨c.ns, c.key, queryRecord c.message c.timestampMs c.device⟩
    order := m.order ++ [id]
    pending := upsert c.key [] (· ++ [id]) m.pending }

def recordQuery (m : DnsMonitor) (c : Capture) : DnsMonitor :=
  let m := insertQuery m c
  evictExcess m.order.length m

/-- The id names no record, or one observed more than 30 s ago. -/
def expired (m : DnsMonitor) (nowNs id : ℕ) : Bool :=
  match m.records.lookup id with
  | none => true
  | some query => decide (maxQueryMatchAgeNs < nowNs - query.observedNs)

/-- Drop the expired front of the key's queue, then take its first id. -/
def takePending (m : DnsMonitor) (key : DnsMatchKey) (nowNs : ℕ) : Option ℕ × DnsMonitor :=
  match m.pending.lookup key with
  | none => (none, m)
  | some queue =>
    let live := queue.dropWhile (expired m nowNs)
    (live.head?, { m with pending := storeQueue m.pending key live.tail })

def answered (query : TrackedQuery) (c : Capture) : TrackedQuery :=
  { query with record := { query.record with
      responseCode := c.message.responseCode
      responseTimeMs := some ((c.ns - query.observedNs) / 1000000)
      responseIps := c.message.responseIps
      responseRecords := c.message.responseRecords } }

def matchResponse (m : DnsMonitor) (c : Capture) : DnsMonitor :=
  let (queryId, m) := takePending m c.key c.ns
  match queryId with
  | none => m
  | some id =>
    match m.records.lookup id with
    | none => m
    | some query =>
      { m with
        records := m.records.insert id (answered query c)
        recentResponses := m.recentResponses.insert c.key c.ns }

/-- `self.max_records.saturating_mul(2).max(1)`. -/
def dedupeLimit (m : DnsMonitor) : ℕ := max (min (m.maxRecords * 2) u64Max) 1

def pruneCaches (m : DnsMonitor) (c : Capture) : DnsMonitor :=
  { m with
    recentQueries := pruneDedupeCache c.iter m.recentQueries c.ns queryDedupWindowNs (dedupeLimit m)
    recentResponses :=
      pruneDedupeCache c.iter m.recentResponses c.ns responseDedupWindowNs (dedupeLimit m) }

/-- The message repeats one of the same key and kind seen less than half a second ago. -/
def duplicate (m : DnsMonitor) (c : Capture) : Bool :=
  if c.message.isQuery then seenWithin m.recentQueries queryDedupWindowNs c.key c.ns
  else seenWithin m.recentResponses responseDedupWindowNs c.key c.ns

/-- `DnsMonitor::ingest`. -/
def ingest (m : DnsMonitor) (c : Capture) : DnsMonitor :=
  if duplicate m c then m
  else if c.message.isQuery then pruneCaches (recordQuery m c) c
  else pruneCaches (matchResponse m c) c

/-- A record of an earlier run; one that was never answered is marked. -/
def restoredRecord (record : DnsQueryRecord) : DnsQueryRecord :=
  if record.responseTimeMs.isNone && record.responseCode.isNone then
    { record with responseCode := some "NO_RESPONSE" }
  else record

def restoreRecord (m : DnsMonitor) (record : DnsQueryRecord) : DnsMonitor :=
  let record := restoredRecord record
  let id := m.nextId
  let key : DnsMatchKey := {
    clientIp := (parse record.sourceIp).getD (.v4 0)
    clientPort := record.sourcePort
    transactionId := record.transactionId
    domain := toAsciiLowercase record.domain
    queryType := toAsciiUppercase record.queryType
    protocol := record.protocol }
  { m with
    nextId := followingId id
    records := m.records.insert id ⟨0, key, record⟩
    order := m.order ++ [id] }

def restoreRecords (m : DnsMonitor) (records : List DnsQueryRecord) : DnsMonitor :=
  (records.rtake m.maxRecords).foldl restoreRecord m

end BandixPlus.Dns.Monitor
