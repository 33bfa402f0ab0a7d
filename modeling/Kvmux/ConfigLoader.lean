import Mathlib.Data.List.Basic
import Kvmux.Binary64
import Kvmux.Config

namespace Kvmux.ConfigLoader
open Binary64

inductive BackendType where
  | vllm
  | llamacpp
  | ollama
  deriving DecidableEq

structure BackendConfig where
  name : Bytes
  type : BackendType
  baseUrl : Bytes
  models : List Bytes
  maxInFlight : Int32 := 8
  healthIntervalMs : Int32 := 2000
  failureThreshold : Int32 := 5
  openMs : Int32 := 10000
  deriving DecidableEq

structure ServerConfig where
  listen : Bytes := text "0.0.0.0"
  port : Int32 := 8080
  maxConcurrentStreams : Int32 := 256
  queueDepth : Int32 := 64
  queueTimeoutMs : Int32 := 5000
  requestTimeoutMs : Int32 := 300000
  deriving DecidableEq

structure MetricsConfig where
  port : Int32 := 9090
  deriving DecidableEq

-- The double nearest to 0.8.
def fourFifths : Double := ⟨false,⟨1022,by decide⟩,⟨0x999999999999A,by decide⟩⟩

structure RoutingConfig where
  policy : RoutingPolicy := .prefixAffinity
  prefixBytes : Int32 := 1024
  loadThreshold : Double := fourFifths
  deriving DecidableEq

structure Config where
  server : ServerConfig := {}
  metrics : MetricsConfig := {}
  routing : RoutingConfig := {}
  backends : List BackendConfig := []
  deriving DecidableEq

structure ConfigError where
  message : Bytes
  deriving DecidableEq

structure Source where
  line : Nat
  column : Nat

-- A parsed document: every node knows where it stands. A table lists its
-- entries in key order; of a date or a time nothing but its place is read.
inductive Node where
  | string (source : Source) (value : Bytes)
  | integer (source : Source) (value : Int64)
  | floating (source : Source) (value : Double)
  | boolean (source : Source) (value : Bool)
  | temporal (source : Source)
  | array (source : Source) (items : List Node)
  | table (source : Source) (entries : List (Bytes × Node))

abbrev Table := List (Bytes × Node)

def Node.source : Node → Source
  | .string source _ | .integer source _ | .floating source _ | .boolean source _ | .temporal source | .array source _
  | .table source _ => source

def get (tbl : Table) (key : Bytes) : Option Node := tbl.lookup key

abbrev Checked := Except ConfigError

def fail (msg : Bytes) : Checked α := .error ⟨msg⟩

def nodeLoc (n : Node) : Bytes :=
  text " (line " ++ text (toString n.source.line) ++ text ", col " ++ text (toString n.source.column) ++ text ")"

def rejectUnknownKeys (allowed : List Bytes) (section_ : Bytes) : Table → Checked Unit
  | [] => pure ()
  | (key,node) :: rest =>
    if allowed.contains key then rejectUnknownKeys allowed section_ rest
    else fail (text "unknown key '" ++ key ++ text "' in [" ++ section_ ++ text "]" ++ nodeLoc node)

-- The opening of every message about a key that is there.
def keyIn (key section_ : Bytes) : Bytes := text "key '" ++ key ++ text "' in [" ++ section_ ++ text "]"

def reqString (tbl : Table) (key section_ : Bytes) : Checked Bytes :=
  match get tbl key with
  | none => fail (text "missing required key '" ++ key ++ text "' in [" ++ section_ ++ text "]")
  | some (.string _ s) => pure s
  | some node => fail (keyIn key section_ ++ text " must be a string" ++ nodeLoc node)

def optString (tbl : Table) (key section_ dflt : Bytes) : Checked Bytes :=
  match get tbl key with
  | none => pure dflt
  | some (.string _ s) => pure s
  | some node => fail (keyIn key section_ ++ text " must be a string" ++ nodeLoc node)

def outOfRange (key section_ value low high : Bytes) (node : Node) : Bytes :=
  keyIn key section_ ++ text " = " ++ value ++ text " is out of range [" ++ low ++ text ", " ++ high ++ text "]" ++ nodeLoc node

def optInt (tbl : Table) (key section_ : Bytes) (dflt minVal maxVal : Int32) : Checked Int32 :=
  match get tbl key with
  | none => pure dflt
  | some (.integer source v) =>
    if v < minVal.toInt64 || maxVal.toInt64 < v then
      fail (outOfRange key section_ (text (toString v.toInt)) (text (toString minVal.toInt)) (text (toString maxVal.toInt))
        (.integer source v))
    else pure v.toInt32
  | some node => fail (keyIn key section_ ++ text " must be an integer" ++ nodeLoc node)

section Doubles

-- How a double is printed in a message is the standard library's.
variable (print : Double → Bytes)

def checkDouble (key section_ : Bytes) (minVal maxVal v : Double) (node : Node) : Checked Double :=
  if lt v minVal || lt maxVal v then fail (outOfRange key section_ (print v) (print minVal) (print maxVal) node) else pure v

def optDouble (tbl : Table) (key section_ : Bytes) (dflt minVal maxVal : Double) : Checked Double :=
  match get tbl key with
  | none => pure dflt
  | some (.floating source v) => checkDouble print key section_ minVal maxVal v (.floating source v)
  | some (.integer source v) => checkDouble print key section_ minVal maxVal (ofInt v.toInt) (.integer source v)
  | some node => fail (keyIn key section_ ++ text " must be a number" ++ nodeLoc node)

end Doubles

def parseBackendType (s : Bytes) (n : Node) : Checked BackendType :=
  if s = text "vllm" then pure .vllm
  else if s = text "llamacpp" then pure .llamacpp
  else if s = text "ollama" then pure .ollama
  else fail (text "backend 'type' must be one of vllm|llamacpp|ollama, got '" ++ s ++ text "'" ++ nodeLoc n)

def parsePolicy (s : Bytes) (n : Node) : Checked RoutingPolicy :=
  if s = text "prefix_affinity" then pure .prefixAffinity
  else if s = text "round_robin" then pure .roundRobin
  else fail (text "routing 'policy' must be prefix_affinity|round_robin, got '" ++ s ++ text "'" ++ nodeLoc n)

def parseServer (root : Table) (s : ServerConfig) : Checked ServerConfig :=
  match get root (text "server") with
  | none => pure s
  | some (.table _ tbl) => do
    rejectUnknownKeys
      [text "listen",text "port",text "max_concurrent_streams",text "queue_depth",text "queue_timeout_ms",
        text "request_timeout_ms"] (text "server") tbl
    let listen ← optString tbl (text "listen") (text "server") s.listen
    let port ← optInt tbl (text "port") (text "server") s.port 1 65535
    let maxConcurrentStreams ←
      optInt tbl (text "max_concurrent_streams") (text "server") s.maxConcurrentStreams 1 1000000
    let queueDepth ← optInt tbl (text "queue_depth") (text "server") s.queueDepth 0 1000000
    let queueTimeoutMs ← optInt tbl (text "queue_timeout_ms") (text "server") s.queueTimeoutMs 0 3600000
    let requestTimeoutMs ← optInt tbl (text "request_timeout_ms") (text "server") s.requestTimeoutMs 1 86400000
    pure {listen,port,maxConcurrentStreams,queueDepth,queueTimeoutMs,requestTimeoutMs}
  | some node => fail (text "[server] must be a table" ++ nodeLoc node)

def parseMetrics (root : Table) (m : MetricsConfig) : Checked MetricsConfig :=
  match get root (text "metrics") with
  | none => pure m
  | some (.table _ tbl) => do
    rejectUnknownKeys [text "port"] (text "metrics") tbl
    let port ← optInt tbl (text "port") (text "metrics") m.port 1 65535
    pure {port}
  | some node => fail (text "[metrics] must be a table" ++ nodeLoc node)

def policyOf (tbl : Table) (dflt : RoutingPolicy) : Checked RoutingPolicy :=
  match get tbl (text "policy") with
  | none => pure dflt
  | some (.string source s) => parsePolicy s (.string source s)
  | some node => fail (text "routing 'policy' must be a string" ++ nodeLoc node)

def parseRouting (print : Double → Bytes) (root : Table) (r : RoutingConfig) : Checked RoutingConfig :=
  match get root (text "routing") with
  | none => pure r
  | some (.table _ tbl) => do
    rejectUnknownKeys [text "policy",text "prefix_bytes",text "load_threshold"] (text "routing") tbl
    let policy ← policyOf tbl r.policy
    let prefixBytes ← optInt tbl (text "prefix_bytes") (text "routing") r.prefixBytes 1 1048576
    let loadThreshold ← optDouble print tbl (text "load_threshold") (text "routing") r.loadThreshold zero one
    pure {policy,prefixBytes,loadThreshold}
  | some node => fail (text "[routing] must be a table" ++ nodeLoc node)

def asTable : Node → Option Table
  | .table _ entries => some entries
  | _ => none

-- An array that is not empty and holds tables only.
def arrayOfTables : Node → Option (List Table)
  | .array _ [] => none
  | .array _ items => items.mapM asTable
  | _ => none

def typeOf (tbl : Table) (name : Bytes) : Checked BackendType :=
  match get tbl (text "type") with
  | some (.string source s) => parseBackendType s (.string source s)
  | _ => fail (text "backend '" ++ name ++ text "' missing required string key 'type'")

def modelNames (name : Bytes) : List Node → Checked (List Bytes)
  | [] => pure []
  | .string _ m :: rest => do
    let more ← modelNames name rest
    pure (m :: more)
  | node :: _ => fail (text "backend '" ++ name ++ text "' 'models' entries must be strings" ++ nodeLoc node)

def modelsOf (tbl : Table) (name : Bytes) : Checked (List Bytes) :=
  match get tbl (text "models") with
  | some (.array _ (item :: items)) => modelNames name (item :: items)
  | _ => fail (text "backend '" ++ name ++ text "' requires a non-empty 'models' array")

def claimName (seenNames : List Bytes) (name : Bytes) : Checked Unit :=
  if seenNames.contains name then fail (text "duplicate backend name '" ++ name ++ text "'") else pure ()

def parseBackend (seenNames : List Bytes) (tbl : Table) : Checked BackendConfig := do
  rejectUnknownKeys
    [text "name",text "type",text "base_url",text "models",text "max_in_flight",text "health_interval_ms",
      text "failure_threshold",text "open_ms"] (text "[backends]]") tbl
  let name ← reqString tbl (text "name") (text "[backends]]")
  claimName seenNames name
  let type ← typeOf tbl name
  let baseUrl ← reqString tbl (text "base_url") (text "[backends]]")
  let models ← modelsOf tbl name
  let b : BackendConfig := {name,type,baseUrl,models}
  let maxInFlight ← optInt tbl (text "max_in_flight") (text "[backends]]") b.maxInFlight 1 1000000
  let healthIntervalMs ← optInt tbl (text "health_interval_ms") (text "[backends]]") b.healthIntervalMs 100 3600000
  let failureThreshold ← optInt tbl (text "failure_threshold") (text "[backends]]") b.failureThreshold 1 1000000
  let openMs ← optInt tbl (text "open_ms") (text "[backends]]") b.openMs 1 3600000
  pure {b with maxInFlight,healthIntervalMs,failureThreshold,openMs}

def parseBackendList (seenNames : List Bytes) : List Table → Checked (List BackendConfig)
  | [] => pure []
  | tbl :: rest => do
    let b ← parseBackend seenNames tbl
    let more ← parseBackendList (b.name :: seenNames) rest
    pure (b :: more)

def parseBackends (root : Table) : Checked (List BackendConfig) :=
  match get root (text "backends") with
  | none => fail (text "at least one [[backends]] entry is required")
  | some node =>
    match arrayOfTables node with
    | none => fail (text "[[backends]] must be an array of tables" ++ nodeLoc node)
    | some [] => fail (text "at least one [[backends]] entry is required")
    | some tables => parseBackendList [] tables

def validate (print : Double → Bytes) (root : Table) : Checked Config := do
  rejectUnknownKeys [text "server",text "metrics",text "routing",text "backends"] (text "<root>") root
  let cfg : Config := {}
  let server ← parseServer root cfg.server
  let metrics ← parseMetrics root cfg.metrics
  let routing ← parseRouting print root cfg.routing
  let backends ← parseBackends root
  pure {server,metrics,routing,backends}

end Kvmux.ConfigLoader
