import BandixPlus.Service.State

/-! # The lock regions of the service

A turn of the collector loop and a handler of `api.rs` take their locks one after the other. Here each lock
region is a step of its own, and so are the appending of a completed bucket, the deletion of a ring and the
saving of a file: the collector loop, the cleanup task and any number of requests take their steps in any
order.

* `step`: the next region of the collector loop, of the cleanup task or of a request.
* `exists_schedule`: each run of the turns and the handlers as a whole is a run of their regions. -/

namespace BandixPlus.Service.Regions

open BandixPlus.Common BandixPlus.Lib.Maps BandixPlus.Lib.LocalTime
open BandixPlus.Monitor.Snapshot BandixPlus.Monitor.Histogram BandixPlus.Monitor.Topology
open BandixPlus.Monitor.Runtime BandixPlus.Monitor.Interfaces BandixPlus.Monitor.Collect
open BandixPlus.Net.Text BandixPlus.Persistence.Paths BandixPlus.Persistence.Manager
open BandixPlus.Persistence.History BandixPlus.Persistence.CurrentHour
open BandixPlus.Monitor.Session (updateHostname)
open BandixPlus.Service.State hiding Op step

/-! ### The collector loop -/

/-- What the collector loop does next, with the data of its turn. -/
inductive CollectorPhase where
  | collect
  | history (data : SnapshotData)
  | histogram (data : SnapshotData)
  /-- The buckets that are still to be appended, and then the snapshot. -/
  | rings (data : SnapshotData) (completed : List CompletedAggregate)
  | saveRuntime (snapshotTs : UInt64)
  | saveHistogram (snapshotTs : UInt64)

/-- The next region of a turn; a tick is read by the first one, and its order of iteration by all. -/
def collectorRegion (opts : Options) (topology : TopologySnapshot) (tick : Tick) (st : ServiceState) :
    CollectorPhase → CollectorPhase × ServiceState
  | .collect =>
    match collectSnapshot opts.config topology tick st.runtime with
    | (none, runtime) => (.collect, { st with runtime })
    | (some data, runtime) => (.history data, { st with runtime })
  | .history data => (.histogram data, { st with history := st.history.ingestSnapshot data })
  | .histogram data =>
    let (completed, histogram) := ingestSnapshotCollectCompleted (hourOf opts.zone) st.histogram data
    (.rings data (if opts.trafficEnableStorage then completed else []), { st with histogram })
  | .rings data (item :: rest) =>
    (.rings data rest,
      { st with files := { st.files with disk := persist opts.persistence st.files.disk item } })
  | .rings data [] =>
    (if periodicPersistIntervalMs ≤ satSub data.timestampMs st.lastPeriodicPersistMs then
      .saveRuntime data.timestampMs
    else .collect, { st with snapshot := data })
  | .saveRuntime snapshotTs =>
    (.saveHistogram snapshotTs, { st with files := { st.files with
      devices := some (saveMonitorRuntime tick.o topology st.runtime) } })
  | .saveHistogram snapshotTs =>
    (.collect, { st with
      files := { st.files with
        currentHour :=
          if opts.trafficEnableStorage then some (saveCurrentHourHistogram tick.o topology st.histogram)
          else st.files.currentHour }
      lastPeriodicPersistMs := snapshotTs })

/-! ### The requests -/

/-- What `set_device_hostname_handler` does next. -/
inductive HostnamePhase where
  | snapshot
  | runtime (snapshotDevice : Option DeviceListItem)
  | save
  | returned (result : Except String Unit)

structure HostnameRequest where
  key : DeviceKey
  hostname : String
  phase : HostnamePhase

/-- What `delete_device_handler` does next. -/
inductive DeletePhase where
  | snapshot
  | runtime
  | history
  | histogram
  | traffic
  | save
  | returned (result : Except String DeleteDeviceResult)

structure DeleteRequest where
  iface : String
  key : DeviceKey
  /-- `snapshot_deleted || runtime_deleted`, as far as it is known. -/
  deviceStateDeleted : Bool
  /-- `recent_traffic_deleted || histogram_deleted || disk_traffic_deleted`, as far as it is known. -/
  trafficDataDeleted : Bool
  phase : DeletePhase

/-- A request that passed its checks. -/
inductive Request where
  | hostname (req : HostnameRequest)
  | delete (req : DeleteRequest)

/-- The checks of `set_device_hostname_handler`. -/
def hostnameRequest (o : IterOrder) (topology : TopologySnapshot) (iface mac hostname : String) :
    Except String HostnameRequest :=
  let iface := trim iface
  let macRaw := trim mac
  let hostname := trim hostname
  if iface = "" then .error "iface is required"
  else if macRaw = "" then .error "mac is required"
  else if hostname = "" then .error "hostname is required"
  else
    match topology.ifindexByName o iface with
    | none => .error s!"unknown iface: {iface}"
    | some ifindex =>
      match macFromStr macRaw with
      | .error _ => .error "invalid mac format"
      | .ok mac => .ok ⟨(ifindex, mac), hostname, .snapshot⟩

/-- The checks of `delete_device_handler`. -/
def deleteRequest (o : IterOrder) (topology : TopologySnapshot) (iface mac : String) :
    Except String DeleteRequest :=
  let iface := trim iface
  if iface = "" then .error "iface is required"
  else
    match macFromStr (trim mac) with
    | .error _ => .error "invalid mac format"
    | .ok mac =>
      match topology.ifindexByName o iface with
      | none => .error s!"unknown iface: {iface}"
      | some ifindex => .ok ⟨iface, (ifindex, mac), false, false, .snapshot⟩

def hostnameRegion (o : IterOrder) (topology : TopologySnapshot) (nowMs : UInt64) (st : ServiceState)
    (req : HostnameRequest) : HostnameRequest × ServiceState :=
  match req.phase with
  | .snapshot =>
    let (snapshotDevice, snapshot) :=
      renameInSnapshot st.snapshot req.key.1 (macToString req.key.2) req.hostname
    ({ req with phase := .runtime snapshotDevice }, { st with snapshot })
  | .runtime snapshotDevice =>
    if req.key ∉ st.runtime.deviceRegistry ∧ snapshotDevice.isNone then
      ({ req with phase := .returned (.error "device not found") }, st)
    else
      ({ req with phase := .save },
        { st with runtime := updateHostname st.runtime req.key req.hostname snapshotDevice nowMs })
  | .save =>
    ({ req with phase := .returned (.ok ()) },
      { st with files := { st.files with devices := some (saveMonitorRuntime o topology st.runtime) } })
  | .returned _ => (req, st)

def deleteRegion (o : IterOrder) (topology : TopologySnapshot) (st : ServiceState)
    (req : DeleteRequest) : DeleteRequest × ServiceState :=
  let mac := macToString req.key.2
  match req.phase with
  | .snapshot =>
    let (snapshotDeleted, snapshot) := removeSnapshotDevice st.snapshot req.key.1 mac
    ({ req with deviceStateDeleted := snapshotDeleted, phase := .runtime }, { st with snapshot })
  | .runtime =>
    let (runtimeDeleted, runtime) := st.runtime.removeDevice req.key.1 req.key.2
    ({ req with deviceStateDeleted := req.deviceStateDeleted || runtimeDeleted, phase := .history },
      { st with runtime })
  | .history =>
    let (recentTrafficDeleted, history) := st.history.removeDevice req.key.1 mac
    ({ req with trafficDataDeleted := recentTrafficDeleted, phase := .histogram }, { st with history })
  | .histogram =>
    let (histogramDeleted, histogram) := removeHistogramDevice st.histogram req.key.1 mac
    ({ req with trafficDataDeleted := req.trafficDataDeleted || histogramDeleted, phase := .traffic },
      { st with histogram })
  | .traffic =>
    match deleteDeviceTraffic st.files.disk req.iface mac with
    | (.error error, disk) =>
      ({ req with phase := .returned (.error s!"delete device traffic failed: {error}") },
        { st with files := { st.files with disk } })
    | (.ok diskTrafficDeleted, disk) =>
      ({ req with trafficDataDeleted := req.trafficDataDeleted || diskTrafficDeleted, phase := .save },
        { st with files := { st.files with disk } })
  | .save =>
    ({ req with phase := .returned (.ok ⟨req.deviceStateDeleted, req.trafficDataDeleted⟩) },
      { st with files := { st.files with devices := some (saveMonitorRuntime o topology st.runtime) } })
  | .returned _ => (req, st)

/-! ### The system -/

/-- The stores that are shared, and where the collector loop and each request are. -/
structure System where
  service : ServiceState
  collector : CollectorPhase
  requests : List Request

/-- A start: the collector loop is before its first turn, and there is no request. -/
def System.start (st : ServiceState) : System := ⟨st, .collect, []⟩

inductive Op where
  /-- The next region of the collector loop. -/
  | collector (tick : Tick)
  /-- The next region of the cleanup task. -/
  | cleanup (o : IterOrder) (nowMs : UInt64)
  /-- A request arrives; one that fails its checks is answered at once. -/
  | hostname (o : IterOrder) (iface mac hostname : String)
  | delete (o : IterOrder) (iface mac : String)
  /-- The next region of the request with this number. -/
  | request (i : ℕ) (o : IterOrder) (nowMs : UInt64)

def requestRegion (o : IterOrder) (topology : TopologySnapshot) (nowMs : UInt64) (st : ServiceState) :
    Request → Request × ServiceState
  | .hostname req =>
    let next := hostnameRegion o topology nowMs st req
    (.hostname next.1, next.2)
  | .delete req =>
    let next := deleteRegion o topology st req
    (.delete next.1, next.2)

def step (opts : Options) (topology : TopologySnapshot) (sys : System) : Op → System
  | .collector tick =>
    let next := collectorRegion opts topology tick sys.service sys.collector
    { sys with collector := next.1, service := next.2 }
  | .cleanup o nowMs => { sys with service := cleanupStep opts o topology nowMs sys.service }
  | .hostname o iface mac hostname =>
    match hostnameRequest o topology iface mac hostname with
    | .error _ => sys
    | .ok req => { sys with requests := sys.requests ++ [.hostname req] }
  | .delete o iface mac =>
    match deleteRequest o topology iface mac with
    | .error _ => sys
    | .ok req => { sys with requests := sys.requests ++ [.delete req] }
  | .request i o nowMs =>
    match sys.requests[i]? with
    | none => sys
    | some req =>
      let next := requestRegion o topology nowMs sys.service req
      { sys with service := next.2, requests := sys.requests.set i next.1 }

/-! ### Turns and handlers without an interruption -/

section
variable (opts : Options) (topology : TopologySnapshot) (sys : System)

/-- The regions of a turn, one after the other. -/
abbrev collectorRun (tick : Tick) (n : ℕ) (sys : System) : System :=
  (List.replicate n (.collector tick)).foldl (step opts topology) sys

theorem collectorRun_add (tick : Tick) (m n : ℕ) : collectorRun opts topology tick (m + n) sys =
    collectorRun opts topology tick n (collectorRun opts topology tick m sys) := by
  unfold collectorRun
  rw [List.replicate_add, List.foldl_append]

/-- The buckets that a turn completed are appended one by one. -/
theorem collectorRun_rings (tick : Tick) (data : SnapshotData) (completed : List CompletedAggregate)
    (h : sys.collector = .rings data completed) :
    collectorRun opts topology tick completed.length sys = { sys with
      service := { sys.service with files := { sys.service.files with
        disk := completed.foldl (persist opts.persistence) sys.service.files.disk } }
      collector := .rings data [] } := by
  induction completed generalizing sys with
  | nil =>
    obtain ⟨st, collector, requests⟩ := sys
    obtain rfl : collector = _ := h
    rfl
  | cons item rest ih =>
    have hstep : step opts topology sys (.collector tick) = { sys with
        service := { sys.service with files := { sys.service.files with
          disk := persist opts.persistence sys.service.files.disk item } }
        collector := .rings data rest } := by
      unfold step
      dsimp only
      rw [h]
      rfl
    show collectorRun opts topology tick rest.length (step opts topology sys (.collector tick)) = _
    rw [hstep, ih _ rfl]
    rfl

/-- From the history to the snapshot: what a turn stores. -/
theorem collectorRun_ingest (tick : Tick) (data : SnapshotData) (st : ServiceState)
    (requests : List Request) :
    ∃ n, collectorRun opts topology tick n ⟨st, .history data, requests⟩ =
      ⟨ingest opts st st.runtime data,
        if periodicPersistIntervalMs ≤ satSub data.timestampMs st.lastPeriodicPersistMs then
          .saveRuntime data.timestampMs
        else .collect, requests⟩ := by
  let ingested := ingestSnapshotCollectCompleted (hourOf opts.zone) st.histogram data
  let completed := if opts.trafficEnableStorage then ingested.1 else []
  have htwo : collectorRun opts topology tick 2 ⟨st, .history data, requests⟩ = ⟨{ st with
      history := st.history.ingestSnapshot data
      histogram := ingested.2 }, .rings data completed, requests⟩ := rfl
  have hdisk : completed.foldl (persist opts.persistence) st.files.disk =
      if opts.trafficEnableStorage then ingested.1.foldl (persist opts.persistence) st.files.disk
      else st.files.disk := by
    unfold completed
    split_ifs <;> rfl
  refine ⟨2 + completed.length + 1, ?_⟩
  rw [collectorRun_add, collectorRun_add, htwo,
    collectorRun_rings opts topology _ tick data completed rfl]
  dsimp only
  rw [hdisk]
  rfl

/-- The two files, one after the other. -/
theorem collectorRun_save (tick : Tick) (st : ServiceState) (requests : List Request) :
    collectorRun opts topology tick 2 ⟨st, .saveRuntime st.snapshot.timestampMs, requests⟩ =
      ⟨persistPeriodically opts tick.o topology st, .collect, requests⟩ := rfl

/-- **A turn without an interruption** is a turn of the loop as a whole. -/
theorem exists_turn (tick : Tick) (st : ServiceState) (requests : List Request) :
    ∃ n, collectorRun opts topology tick n ⟨st, .collect, requests⟩ =
      ⟨collectorTick opts topology st tick, .collect, requests⟩ := by
  have hone : collectorRun opts topology tick 1 ⟨st, .collect, requests⟩ =
      step opts topology ⟨st, .collect, requests⟩ (.collector tick) := rfl
  unfold step collectorRegion at hone
  dsimp only at hone
  unfold collectorTick
  cases hcollect : collectSnapshot opts.config topology tick st.runtime with
  | mk snapshot runtime =>
    rw [hcollect] at hone
    cases snapshot with
    | none => exact ⟨1, hone⟩
    | some data =>
      obtain ⟨n, hn⟩ := collectorRun_ingest opts topology tick data { st with runtime } requests
      dsimp only at hone hn ⊢
      rw [← hone, ← collectorRun_add] at hn
      split_ifs at hn ⊢ with hdue hdue' hdue'
      · refine ⟨1 + n + 2, ?_⟩
        rw [collectorRun_add, hn]
        exact collectorRun_save opts topology tick _ requests
      · exact absurd hdue hdue'
      · exact absurd hdue' hdue
      · exact ⟨1 + n, hn⟩

/-- The next regions of a request, one after the other. -/
def requestRegions (o : IterOrder) (topology : TopologySnapshot) (nowMs : UInt64) :
    ℕ → Request → ServiceState → Request × ServiceState
  | 0, req, st => (req, st)
  | n + 1, req, st =>
    let next := requestRegion o topology nowMs st req
    requestRegions o topology nowMs n next.1 next.2

/-- The regions of the newest request, in the system. -/
theorem foldl_request (o : IterOrder) (nowMs : UInt64) (collector : CollectorPhase)
    (requests : List Request) (n : ℕ) (st : ServiceState) (req : Request) :
    (List.replicate n (.request requests.length o nowMs)).foldl (step opts topology)
        ⟨st, collector, requests ++ [req]⟩ =
      ⟨(requestRegions o topology nowMs n req st).2, collector,
        requests ++ [(requestRegions o topology nowMs n req st).1]⟩ := by
  induction n generalizing st req with
  | zero => rfl
  | succ n ih =>
    have hstep : step opts topology ⟨st, collector, requests ++ [req]⟩
        (.request requests.length o nowMs) =
          ⟨(requestRegion o topology nowMs st req).2, collector,
            requests ++ [(requestRegion o topology nowMs st req).1]⟩ := by
      unfold step
      dsimp only
      rw [List.getElem?_concat_length]
      dsimp only
      rw [List.set_append_right _ _ le_rfl, Nat.sub_self, List.set_cons_zero]
    rw [List.replicate_succ, List.foldl_cons, hstep, ih]
    rfl

variable (o : IterOrder) (st : ServiceState) (iface mac : String)

/-- A deletion that passes its checks is about a device on an interface of the topology. -/
theorem deleteRequest_eq_ok {req : DeleteRequest} (h : deleteRequest o topology iface mac = .ok req) :
    Requests o topology iface mac req.key ∧ trim iface ≠ "" ∧
      req = ⟨trim iface, req.key, false, false, .snapshot⟩ := by
  unfold deleteRequest at h
  dsimp only at h
  split_ifs at h with hblank
  split at h
  · cases h
  · next hmac =>
    split at h
    · cases h
    · next hifindex =>
      obtain rfl := Except.ok.inj h
      exact ⟨⟨hifindex, hmac⟩, hblank, rfl⟩

theorem hostnameRequest_eq_ok {hostname : String} {req : HostnameRequest}
    (h : hostnameRequest o topology iface mac hostname = .ok req) :
    Requests o topology iface mac req.key ∧ trim iface ≠ "" ∧ trim mac ≠ "" ∧ trim hostname ≠ "" ∧
      req = ⟨req.key, trim hostname, .snapshot⟩ := by
  unfold hostnameRequest at h
  dsimp only at h
  split_ifs at h with hiface hmacRaw hname
  split at h
  · cases h
  · next hifindex =>
    split at h
    · cases h
    · next hmac =>
      obtain rfl := Except.ok.inj h
      exact ⟨⟨hifindex, hmac⟩, hiface, hmacRaw, hname, rfl⟩

/-- A deletion that fails its checks is refused. -/
theorem deleteDevice_of_error {message : String} (h : deleteRequest o topology iface mac = .error message) :
    deleteDevice o topology st iface mac = (.error message, st) := by
  unfold deleteRequest at h
  unfold deleteDevice
  dsimp only at h ⊢
  by_cases hblank : trim iface = ""
  · rw [if_pos hblank] at h ⊢
    rw [Except.error.inj h]
  · rw [if_neg hblank] at h ⊢
    cases hmac : macFromStr (trim mac) with
    | error _ =>
      rw [hmac] at h
      rw [← Except.error.inj h]
    | ok mac' =>
      rw [hmac] at h
      dsimp only at h ⊢
      cases hifindex : topology.ifindexByName o (trim iface) with
      | none =>
        rw [hifindex] at h
        rw [← Except.error.inj h]
      | some ifindex =>
        rw [hifindex] at h
        cases h

/-- **A deletion without an interruption** is one of the handler as a whole. -/
theorem exists_delete {req : DeleteRequest} (h : deleteRequest o topology iface mac = .ok req)
    (nowMs : UInt64) :
    ∃ done : DeleteRequest, done.phase = .returned (deleteDevice o topology st iface mac).1 ∧
      requestRegions o topology nowMs 6 (.delete req) st =
        (.delete done, (deleteDevice o topology st iface mac).2) := by
  obtain ⟨⟨hifindex, hmac⟩, hblank, hreq⟩ := deleteRequest_eq_ok topology o iface mac h
  rw [hreq]
  unfold deleteDevice
  dsimp only
  rw [if_neg hblank, hmac]
  dsimp only
  rw [hifindex]
  simp only [requestRegions, requestRegion, deleteRegion]
  rcases deleteDeviceTraffic st.files.disk (trim iface) (macToString req.key.2) with
    ⟨error | removed, disk⟩
  · exact ⟨_, rfl, rfl⟩
  · exact ⟨_, rfl, rfl⟩

/-- A request for a host name that fails its checks is refused. -/
theorem setDeviceHostname_of_error {hostname message : String}
    (h : hostnameRequest o topology iface mac hostname = .error message) (nowMs : UInt64) :
    setDeviceHostname o topology st iface mac hostname nowMs = (.error message, st) := by
  unfold hostnameRequest at h
  unfold setDeviceHostname
  dsimp only at h ⊢
  by_cases hiface : trim iface = ""
  · rw [if_pos hiface] at h ⊢
    rw [Except.error.inj h]
  rw [if_neg hiface] at h ⊢
  by_cases hmac : trim mac = ""
  · rw [if_pos hmac] at h ⊢
    rw [Except.error.inj h]
  rw [if_neg hmac] at h ⊢
  by_cases hname : trim hostname = ""
  · rw [if_pos hname] at h ⊢
    rw [Except.error.inj h]
  rw [if_neg hname] at h ⊢
  cases hifindex : topology.ifindexByName o (trim iface) with
  | none =>
    rw [hifindex] at h
    rw [← Except.error.inj h]
  | some ifindex =>
    rw [hifindex] at h
    dsimp only at h ⊢
    cases hmac' : macFromStr (trim mac) with
    | error _ =>
      rw [hmac'] at h
      rw [← Except.error.inj h]
    | ok mac' =>
      rw [hmac'] at h
      cases h

/-- **A request for a host name without an interruption** is one of the handler as a whole. -/
theorem exists_hostname {hostname : String} {req : HostnameRequest}
    (h : hostnameRequest o topology iface mac hostname = .ok req) (nowMs : UInt64) :
    ∃ done : HostnameRequest,
      done.phase = .returned (setDeviceHostname o topology st iface mac hostname nowMs).1 ∧
      requestRegions o topology nowMs 3 (.hostname req) st =
        (.hostname done, (setDeviceHostname o topology st iface mac hostname nowMs).2) := by
  obtain ⟨⟨hifindex, hmac⟩, hiface, hmacRaw, hname, hreq⟩ := hostnameRequest_eq_ok topology o iface mac h
  generalize req.key = key at hifindex hmac hreq
  subst hreq
  unfold setDeviceHostname
  dsimp only
  rw [if_neg hiface, if_neg hmacRaw, if_neg hname, hifindex]
  dsimp only
  rw [hmac]
  let renamed := renameInSnapshot st.snapshot key.1 (macToString key.2) (trim hostname)
  let req : HostnameRequest := ⟨key, trim hostname, .runtime renamed.1⟩
  have hsnapshot : requestRegions o topology nowMs 3 (.hostname ⟨key, trim hostname, .snapshot⟩) st =
      requestRegions o topology nowMs 2 (.hostname req) { st with snapshot := renamed.2 } := rfl
  have hruntime : hostnameRegion o topology nowMs { st with snapshot := renamed.2 } req =
      if key ∉ st.runtime.deviceRegistry ∧ renamed.1.isNone then
        ({ req with phase := .returned (.error "device not found") }, { st with snapshot := renamed.2 })
      else ({ req with phase := .save }, { st with
        snapshot := renamed.2
        runtime := updateHostname st.runtime key (trim hostname) renamed.1 nowMs }) := rfl
  rw [hsnapshot]
  simp only [requestRegions, requestRegion, hruntime]
  split_ifs with hunknown
  · exact ⟨_, rfl, rfl⟩
  · exact ⟨_, rfl, rfl⟩

/-! ### The schedule of a run -/

/-- **A step of the service as a whole is a run of regions.** -/
theorem exists_regions (op : State.Op) (requests : List Request) :
    ∃ (ops : List Op) (requests' : List Request),
    ops.foldl (step opts topology) ⟨st, .collect, requests⟩ =
      ⟨State.step opts topology st op, .collect, requests'⟩ := by
  cases op with
  | tick tick =>
    obtain ⟨n, hn⟩ := exists_turn opts topology tick st requests
    exact ⟨_, _, hn⟩
  | cleanup o nowMs => exact ⟨[.cleanup o nowMs], requests, rfl⟩
  | hostname o iface mac hostname nowMs =>
    cases hreq : hostnameRequest o topology iface mac hostname with
    | error message =>
      refine ⟨[], requests, ?_⟩
      show _ = System.mk (setDeviceHostname o topology st iface mac hostname nowMs).2 _ _
      rw [setDeviceHostname_of_error topology o st iface mac hreq nowMs]
      rfl
    | ok req =>
      obtain ⟨done, -, hrun⟩ := exists_hostname topology o st iface mac hreq nowMs
      refine ⟨.hostname o iface mac hostname :: List.replicate 3 (.request requests.length o nowMs),
        requests ++ [.hostname done], ?_⟩
      have hbegin : step opts topology ⟨st, .collect, requests⟩ (.hostname o iface mac hostname) =
          ⟨st, .collect, requests ++ [.hostname req]⟩ := by
        unfold step
        dsimp only
        rw [hreq]
      rw [List.foldl_cons, hbegin, foldl_request, hrun]
      rfl
  | delete o iface mac =>
    cases hreq : deleteRequest o topology iface mac with
    | error message =>
      refine ⟨[], requests, ?_⟩
      show _ = System.mk (deleteDevice o topology st iface mac).2 _ _
      rw [deleteDevice_of_error topology o st iface mac hreq]
      rfl
    | ok req =>
      obtain ⟨done, -, hrun⟩ := exists_delete topology o st iface mac hreq 0
      refine ⟨.delete o iface mac :: List.replicate 6 (.request requests.length o 0),
        requests ++ [.delete done], ?_⟩
      have hbegin : step opts topology ⟨st, .collect, requests⟩ (.delete o iface mac) =
          ⟨st, .collect, requests ++ [.delete req]⟩ := by
        unfold step
        dsimp only
        rw [hreq]
      rw [List.foldl_cons, hbegin, foldl_request, hrun]
      rfl

/-- **Each run of the service as a whole is a run of its regions.** -/
theorem exists_schedule (ops : List State.Op) (requests : List Request) :
    ∃ (regions : List Op) (requests' : List Request),
    regions.foldl (step opts topology) ⟨st, .collect, requests⟩ =
      ⟨ops.foldl (State.step opts topology) st, .collect, requests'⟩ := by
  induction ops generalizing st requests with
  | nil => exact ⟨[], requests, rfl⟩
  | cons op rest ih =>
    obtain ⟨first, requests', hfirst⟩ := exists_regions opts topology st op requests
    obtain ⟨later, requests'', hlater⟩ := ih (State.step opts topology st op) requests'
    refine ⟨first ++ later, requests'', ?_⟩
    rw [List.foldl_append, hfirst, hlater]
    rfl

end

end BandixPlus.Service.Regions
