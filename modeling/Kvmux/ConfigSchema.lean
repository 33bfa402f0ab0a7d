import Mathlib.Data.List.Basic
import Kvmux.Acceptance
import Kvmux.ConfigLoader

namespace Kvmux.ConfigLoader
open Binary64 Acceptance

section Schema

-- What a key may hold. The last two are for the load threshold: what the loader
-- does not refuse there, and anything at all.
inductive Kind where
  | string
  | integer (low high : Int32)
  | oneOf (names : List Bytes)
  | strings
  | fraction
  | unrefused
  | anything

def isString : Node → Bool
  | .string _ _ => true
  | _ => false

def isFraction (d : Double) : Bool := le zero d && le d one

def Kind.admits : Kind → Node → Bool
  | .string,.string _ _ => true
  | .integer low high,.integer _ v => decide (low.toInt ≤ v.toInt) && decide (v.toInt ≤ high.toInt)
  | .oneOf names,.string _ s => names.contains s
  | .strings,.array _ items => !items.isEmpty && items.all isString
  | .fraction,.integer _ v | .unrefused,.integer _ v => decide (0 ≤ v.toInt) && decide (v.toInt ≤ 1)
  | .fraction,.floating _ d => isFraction d
  | .unrefused,.floating _ d => isFraction d || isNaN d
  | .anything,_ => true
  | _,_ => false

structure Field where
  key : Bytes
  kind : Kind
  required : Bool := false

def Field.admits (field : Field) (tbl : Table) : Bool :=
  match get tbl field.key with
  | none => !field.required
  | some node => field.kind.admits node

def known (keys : List Bytes) (tbl : Table) : Bool := tbl.all fun entry => keys.contains entry.1

def tableConforms (fields : List Field) (tbl : Table) : Bool :=
  known (fields.map Field.key) tbl && fields.all fun field => field.admits tbl

def sectionConforms (fields : List Field) : Option Node → Bool
  | none => true
  | some (.table _ tbl) => tableConforms fields tbl
  | _ => false

def serverFields : List Field :=
  [⟨text "listen",.string,false⟩,⟨text "port",.integer 1 65535,false⟩,
    ⟨text "max_concurrent_streams",.integer 1 1000000,false⟩,⟨text "queue_depth",.integer 0 1000000,false⟩,
    ⟨text "queue_timeout_ms",.integer 0 3600000,false⟩,⟨text "request_timeout_ms",.integer 1 86400000,false⟩]

def metricsFields : List Field := [⟨text "port",.integer 1 65535,false⟩]

def routingFields (threshold : Kind) : List Field :=
  [⟨text "policy",.oneOf [text "prefix_affinity",text "round_robin"],false⟩,⟨text "prefix_bytes",.integer 1 1048576,false⟩,
    ⟨text "load_threshold",threshold,false⟩]

def backendFields : List Field :=
  [⟨text "name",.string,true⟩,⟨text "type",.oneOf [text "vllm",text "llamacpp",text "ollama"],true⟩,
    ⟨text "base_url",.string,true⟩,⟨text "models",.strings,true⟩,⟨text "max_in_flight",.integer 1 1000000,false⟩,
    ⟨text "health_interval_ms",.integer 100 3600000,false⟩,⟨text "failure_threshold",.integer 1 1000000,false⟩,
    ⟨text "open_ms",.integer 1 3600000,false⟩]

def nameOf (tbl : Table) : Option Bytes :=
  match get tbl (text "name") with
  | some (.string _ s) => some s
  | _ => none

def backendsConform (node : Option Node) : Bool :=
  match node.bind arrayOfTables with
  | none => false
  | some tables => tables.all (tableConforms backendFields) && decide (tables.map nameOf).Nodup

def conformsWith (threshold : Kind) (root : Table) : Bool :=
  known [text "server",text "metrics",text "routing",text "backends"] root &&
  sectionConforms serverFields (get root (text "server")) &&
  sectionConforms metricsFields (get root (text "metrics")) &&
  sectionConforms (routingFields threshold) (get root (text "routing")) &&
  backendsConform (get root (text "backends"))

def conforms (root : Table) : Bool := conformsWith .fraction root

end Schema
section Values

-- A value is the one given, or the default where none is.
def StringGiven (tbl : Table) (key dflt value : Bytes) : Prop :=
  match get tbl key with
  | some (.string _ s) => value = s
  | _ => value = dflt

def IntGiven (tbl : Table) (key : Bytes) (dflt value : Int32) : Prop :=
  match get tbl key with
  | some (.integer _ v) => value.toInt = v.toInt
  | _ => value = dflt

def NumberGiven (tbl : Table) (key : Bytes) (dflt value : Double) : Prop :=
  match get tbl key with
  | some (.floating _ d) => value = d
  | some (.integer _ v) => scaled value = v.toInt * scaled one
  | _ => value = dflt

def StringsGiven (tbl : Table) (key : Bytes) (values : List Bytes) : Prop :=
  ∃ source items, get tbl key = some (.array source items) ∧
    List.Forall₂ (fun value item => ∃ source, item = .string source value) values items

def spelling : BackendType → Bytes
  | .vllm => text "vllm"
  | .llamacpp => text "llamacpp"
  | .ollama => text "ollama"

def policySpelling : RoutingPolicy → Bytes
  | .prefixAffinity => text "prefix_affinity"
  | .roundRobin => text "round_robin"

structure ServerGiven (tbl : Table) (s : ServerConfig) : Prop where
  listen : StringGiven tbl (text "listen") (text "0.0.0.0") s.listen
  port : IntGiven tbl (text "port") 8080 s.port
  maxConcurrentStreams : IntGiven tbl (text "max_concurrent_streams") 256 s.maxConcurrentStreams
  queueDepth : IntGiven tbl (text "queue_depth") 64 s.queueDepth
  queueTimeoutMs : IntGiven tbl (text "queue_timeout_ms") 5000 s.queueTimeoutMs
  requestTimeoutMs : IntGiven tbl (text "request_timeout_ms") 300000 s.requestTimeoutMs

structure RoutingGiven (tbl : Table) (r : RoutingConfig) : Prop where
  policy : StringGiven tbl (text "policy") (text "prefix_affinity") (policySpelling r.policy)
  prefixBytes : IntGiven tbl (text "prefix_bytes") 1024 r.prefixBytes
  loadThreshold : NumberGiven tbl (text "load_threshold") fourFifths r.loadThreshold

structure BackendGiven (tbl : Table) (b : BackendConfig) : Prop where
  name : nameOf tbl = some b.name
  type : ∃ source, get tbl (text "type") = some (.string source (spelling b.type))
  baseUrl : ∃ source, get tbl (text "base_url") = some (.string source b.baseUrl)
  models : StringsGiven tbl (text "models") b.models
  maxInFlight : IntGiven tbl (text "max_in_flight") 8 b.maxInFlight
  healthIntervalMs : IntGiven tbl (text "health_interval_ms") 2000 b.healthIntervalMs
  failureThreshold : IntGiven tbl (text "failure_threshold") 5 b.failureThreshold
  openMs : IntGiven tbl (text "open_ms") 10000 b.openMs

def entries : Option Node → Table
  | some (.table _ tbl) => tbl
  | _ => []

structure Reproduces (root : Table) (cfg : Config) : Prop where
  server : ServerGiven (entries (get root (text "server"))) cfg.server
  metrics : IntGiven (entries (get root (text "metrics"))) (text "port") 9090 cfg.metrics.port
  routing : RoutingGiven (entries (get root (text "routing"))) cfg.routing
  backends : ∃ node tables, get root (text "backends") = some node ∧ arrayOfTables node = some tables ∧
    List.Forall₂ BackendGiven tables cfg.backends

def Within (low high value : Int32) : Prop := low ≤ value ∧ value ≤ high

structure ServerInRange (s : ServerConfig) : Prop where
  port : Within 1 65535 s.port
  maxConcurrentStreams : Within 1 1000000 s.maxConcurrentStreams
  queueDepth : Within 0 1000000 s.queueDepth
  queueTimeoutMs : Within 0 3600000 s.queueTimeoutMs
  requestTimeoutMs : Within 1 86400000 s.requestTimeoutMs

structure BackendInRange (b : BackendConfig) : Prop where
  maxInFlight : Within 1 1000000 b.maxInFlight
  healthIntervalMs : Within 100 3600000 b.healthIntervalMs
  failureThreshold : Within 1 1000000 b.failureThreshold
  openMs : Within 1 3600000 b.openMs

-- Every number but the load threshold.
structure Bounded (cfg : Config) : Prop where
  server : ServerInRange cfg.server
  metrics : Within 1 65535 cfg.metrics.port
  prefixBytes : Within 1 1048576 cfg.routing.prefixBytes
  backends : ∀ b ∈ cfg.backends, BackendInRange b

structure InRange (cfg : Config) : Prop extends Bounded cfg where
  loadThreshold : isFraction cfg.routing.loadThreshold = true

end Values
section Getters

theorem rejectUnknownKeys_meets (keys : List Bytes) (section_ : Bytes) (tbl : Table) :
    Meets (rejectUnknownKeys keys section_ tbl) (known keys tbl = true) fun _ => True := by
  induction tbl with
  | nil => exact ⟨rfl,trivial⟩
  | cons entry rest ih =>
    obtain ⟨key,node⟩ := entry
    rw [rejectUnknownKeys]
    split
    · rename_i allowed
      refine ih.iff ?_
      rw [known,known,List.all_cons,allowed,Bool.true_and]
    · rename_i refused
      intro all
      rw [known,List.all_cons,Bool.and_eq_true] at all
      exact refused all.1

theorem reqString_meets (tbl : Table) (key section_ : Bytes) :
    Meets (reqString tbl key section_) (Field.admits ⟨key,.string,true⟩ tbl = true) fun value =>
      ∃ source, get tbl key = some (.string source value) := by
  unfold reqString Field.admits
  cases found : get tbl key with
  | none => exact fun admitted => by cases admitted
  | some node =>
    cases node with
    | string source s => exact ⟨rfl,source,rfl⟩
    | _ => exact fun admitted => by cases admitted

theorem optString_meets (tbl : Table) (key section_ dflt : Bytes) :
    Meets (optString tbl key section_ dflt) (Field.admits ⟨key,.string,false⟩ tbl = true) (StringGiven tbl key dflt) := by
  unfold optString Field.admits StringGiven
  cases found : get tbl key with
  | none => exact ⟨rfl,rfl⟩
  | some node =>
    cases node with
    | string source s => exact ⟨rfl,rfl⟩
    | _ => exact fun admitted => by cases admitted

theorem narrow {low high : Int32} {v : Int64} (lower : low.toInt ≤ v.toInt) (upper : v.toInt ≤ high.toInt) :
    v.toInt32.toInt = v.toInt := by
  have least := Int32.le_toInt low
  have most := Int32.toInt_lt high
  rw [Int64.toInt_toInt32]
  exact Int.bmod_eq_of_le (by omega) (by omega)

theorem optInt_meets (tbl : Table) (key section_ : Bytes) (dflt low high : Int32) (inside : Within low high dflt) :
    Meets (optInt tbl key section_ dflt low high) (Field.admits ⟨key,.integer low high,false⟩ tbl = true) fun value =>
      IntGiven tbl key dflt value ∧ Within low high value := by
  unfold optInt Field.admits IntGiven
  cases found : get tbl key with
  | none => exact ⟨rfl,rfl,inside⟩
  | some node =>
    cases node with
    | integer source v =>
      dsimp only [Kind.admits]
      split
      · rename_i outside
        intro admitted
        simp only [Bool.or_eq_true,Bool.and_eq_true,decide_eq_true_eq,Int64.lt_iff_toInt_lt,Int32.toInt_toInt64]
          at outside admitted
        omega
      · rename_i outside
        simp only [Bool.or_eq_true,decide_eq_true_eq,Int64.lt_iff_toInt_lt,Int32.toInt_toInt64,not_or,not_lt] at outside
        have same := narrow outside.1 outside.2
        refine ⟨by simp [outside],same,?_,?_⟩
        · rw [Int32.le_iff_toInt_le,same]
          exact outside.1
        · rw [Int32.le_iff_toInt_le,same]
          exact outside.2
    | _ => exact fun admitted => by cases admitted

def nanAt (tbl : Table) (key : Bytes) : Bool :=
  match get tbl key with
  | some (.floating _ d) => isNaN d
  | _ => false

theorem outside_unrefused (d : Double) : (lt d zero || lt one d) = false ↔ (isFraction d || isNaN d) = true := by
  rw [outside_false zero one rfl rfl,isFraction,Bool.or_eq_true,Bool.and_eq_true,or_comm]

theorem fraction_integer (v : Int) : (lt (ofInt v) zero || lt one (ofInt v)) = false ↔ v = 0 ∨ v = 1 := by
  constructor
  · intro inside
    obtain ⟨below,above⟩ := Bool.or_eq_false_iff.mp inside
    by_contra other
    by_cases negative : v < 0
    · rw [ofInt_below negative] at below
      cases below
    · rw [ofInt_above (by omega)] at above
      cases above
  · rintro (rfl | rfl)
    · decide +kernel
    · decide +kernel

theorem optDouble_meets (print : Double → Bytes) (tbl : Table) (key section_ : Bytes) (dflt : Double)
    (inside : isFraction dflt = true) :
    Meets (optDouble print tbl key section_ dflt zero one) (Field.admits ⟨key,.unrefused,false⟩ tbl = true) fun value =>
      NumberGiven tbl key dflt value ∧ (nanAt tbl key = true ∨ isFraction value = true) := by
  unfold optDouble Field.admits NumberGiven nanAt checkDouble
  cases found : get tbl key with
  | none => exact ⟨rfl,rfl,.inr inside⟩
  | some node =>
    cases node with
    | floating source d =>
      dsimp only [Kind.admits]
      rw [← outside_unrefused]
      split
      · rename_i outside
        intro admitted
        rw [outside] at admitted
        cases admitted
      · rename_i inside
        have free : (lt d zero || lt one d) = false := by simpa using inside
        have either := (outside_unrefused d).mp free
        exact ⟨free,rfl,(Bool.or_eq_true_iff.mp either).symm⟩
    | integer source v =>
      have admits : (decide (0 ≤ v.toInt) && decide (v.toInt ≤ 1)) = true ↔ v.toInt = 0 ∨ v.toInt = 1 := by
        simp only [Bool.and_eq_true,decide_eq_true_eq]
        omega
      dsimp only [Kind.admits]
      rw [admits,← fraction_integer]
      split
      · rename_i outside
        intro admitted
        rw [outside] at admitted
        cases admitted
      · rename_i inside
        have free : (lt (ofInt v.toInt) zero || lt one (ofInt v.toInt)) = false := by simpa using inside
        refine ⟨free,?_⟩
        rcases (fraction_integer v.toInt).mp free with same | same
        · rw [same]
          exact ⟨by decide +kernel,.inr (by decide +kernel)⟩
        · rw [same]
          exact ⟨by decide +kernel,.inr (by decide +kernel)⟩
    | _ => exact fun admitted => by cases admitted

theorem parsePolicy_meets (s : Bytes) (node : Node) :
    Meets (parsePolicy s node) ([text "prefix_affinity",text "round_robin"].contains s = true) fun policy =>
      policySpelling policy = s := by
  unfold parsePolicy
  split
  · rename_i same
    exact ⟨by simp [same],same.symm⟩
  · split
    · rename_i same
      exact ⟨by simp [same],same.symm⟩
    · rename_i first second
      intro listed
      simp [first,second] at listed

theorem policyOf_meets (tbl : Table) :
    Meets (policyOf tbl .prefixAffinity)
      (Field.admits ⟨text "policy",.oneOf [text "prefix_affinity",text "round_robin"],false⟩ tbl = true) fun policy =>
      StringGiven tbl (text "policy") (text "prefix_affinity") (policySpelling policy) := by
  unfold policyOf Field.admits StringGiven
  cases found : get tbl (text "policy") with
  | none => exact ⟨rfl,rfl⟩
  | some node =>
    cases node with
    | string source s => exact parsePolicy_meets s _
    | _ => exact fun admitted => by cases admitted

theorem parseBackendType_meets (s : Bytes) (node : Node) :
    Meets (parseBackendType s node) ([text "vllm",text "llamacpp",text "ollama"].contains s = true) fun type =>
      spelling type = s := by
  unfold parseBackendType
  split
  · rename_i same
    exact ⟨by simp [same],same.symm⟩
  · split
    · rename_i same
      exact ⟨by simp [same],same.symm⟩
    · split
      · rename_i same
        exact ⟨by simp [same],same.symm⟩
      · rename_i first second third
        intro listed
        simp [first,second,third] at listed

theorem typeOf_meets (tbl : Table) (name : Bytes) :
    Meets (typeOf tbl name)
      (Field.admits ⟨text "type",.oneOf [text "vllm",text "llamacpp",text "ollama"],true⟩ tbl = true) fun type =>
      ∃ source, get tbl (text "type") = some (.string source (spelling type)) := by
  unfold typeOf Field.admits
  cases found : get tbl (text "type") with
  | none => exact fun admitted => by cases admitted
  | some node =>
    cases node with
    | string source s =>
      refine (parseBackendType_meets s _).imp fun type same => ⟨source,?_⟩
      rw [same]
    | _ => exact fun admitted => by cases admitted

theorem modelNames_meets (name : Bytes) (items : List Node) :
    Meets (modelNames name items) (items.all isString = true) fun values =>
      List.Forall₂ (fun value item => ∃ source, item = .string source value) values items := by
  induction items with
  | nil => exact ⟨rfl,.nil⟩
  | cons item rest ih =>
    cases item with
    | string source s =>
      refine (ih.bind fun more reads => Meets.pure ?_).iff ?_
      · exact .cons ⟨source,rfl⟩ reads
      · simp [isString]
    | _ => exact fun admitted => by cases admitted

theorem modelsOf_meets (tbl : Table) (name : Bytes) :
    Meets (modelsOf tbl name) (Field.admits ⟨text "models",.strings,true⟩ tbl = true) (StringsGiven tbl (text "models")) := by
  unfold modelsOf Field.admits StringsGiven
  cases found : get tbl (text "models") with
  | none => exact fun admitted => by cases admitted
  | some node =>
    cases node with
    | array source items =>
      cases items with
      | nil => exact fun admitted => by cases admitted
      | cons item rest =>
        exact (modelNames_meets name (item :: rest)).imp fun values reads => ⟨source,_,rfl,reads⟩
    | _ => exact fun admitted => by cases admitted

theorem claimName_meets (seenNames : List Bytes) (name : Bytes) :
    Meets (claimName seenNames name) (name ∉ seenNames) fun _ => True := by
  unfold claimName
  split
  · rename_i seen
    exact fun fresh => fresh (by simpa using seen)
  · rename_i unseen
    exact ⟨by simpa using unseen,trivial⟩

end Getters
section Sections

theorem defaults_within : Within 1 65535 8080 ∧ Within 1 1000000 256 ∧ Within 0 1000000 64 ∧ Within 0 3600000 5000 ∧
    Within 1 86400000 300000 ∧ Within 1 65535 9090 ∧ Within 1 1048576 1024 ∧ Within 1 1000000 8 ∧
    Within 100 3600000 2000 ∧ Within 1 1000000 5 ∧ Within 1 3600000 10000 := by
  unfold Within
  decide

theorem parseServer_meets (root : Table) :
    Meets (parseServer root {}) (sectionConforms serverFields (get root (text "server")) = true) fun s =>
      ServerGiven (entries (get root (text "server"))) s ∧ ServerInRange s := by
  obtain ⟨port,streams,depth,queue,request,_⟩ := defaults_within
  unfold parseServer
  cases found : get root (text "server") with
  | none => exact ⟨rfl,⟨rfl,rfl,rfl,rfl,rfl,rfl⟩,port,streams,depth,queue,request⟩
  | some node =>
    cases node with
    | table source tbl =>
      refine ((rejectUnknownKeys_meets _ _ tbl).bind fun _ _ => (optString_meets tbl _ _ _).bind fun listen givenListen =>
        (optInt_meets tbl _ _ _ _ _ port).bind fun _ port => (optInt_meets tbl _ _ _ _ _ streams).bind fun _ streams =>
        (optInt_meets tbl _ _ _ _ _ depth).bind fun _ depth => (optInt_meets tbl _ _ _ _ _ queue).bind fun _ queue =>
        (optInt_meets tbl _ _ _ _ _ request).bind fun _ request => Meets.pure ?_).iff ?_
      · exact ⟨⟨givenListen,port.1,streams.1,depth.1,queue.1,request.1⟩,port.2,streams.2,depth.2,queue.2,request.2⟩
      · simp [sectionConforms,tableConforms,serverFields]
    | _ => exact fun admitted => by cases admitted

theorem parseMetrics_meets (root : Table) :
    Meets (parseMetrics root {}) (sectionConforms metricsFields (get root (text "metrics")) = true) fun m =>
      IntGiven (entries (get root (text "metrics"))) (text "port") 9090 m.port ∧ Within 1 65535 m.port := by
  obtain ⟨_,_,_,_,_,port,_⟩ := defaults_within
  unfold parseMetrics
  cases found : get root (text "metrics") with
  | none => exact ⟨rfl,rfl,port⟩
  | some node =>
    cases node with
    | table source tbl =>
      refine ((rejectUnknownKeys_meets _ _ tbl).bind fun _ _ => (optInt_meets tbl _ _ _ _ _ port).bind fun _ port =>
        Meets.pure ?_).iff ?_
      · exact port
      · simp [sectionConforms,tableConforms,metricsFields]
    | _ => exact fun admitted => by cases admitted

theorem fourFifths_fraction : isFraction fourFifths = true := by decide +kernel

theorem parseRouting_meets (print : Double → Bytes) (root : Table) :
    Meets (parseRouting print root {}) (sectionConforms (routingFields .unrefused) (get root (text "routing")) = true) fun r =>
      RoutingGiven (entries (get root (text "routing"))) r ∧ Within 1 1048576 r.prefixBytes ∧
        (nanAt (entries (get root (text "routing"))) (text "load_threshold") = true ∨ isFraction r.loadThreshold = true) := by
  obtain ⟨_,_,_,_,_,_,bytes,_⟩ := defaults_within
  unfold parseRouting
  cases found : get root (text "routing") with
  | none => exact ⟨rfl,⟨rfl,rfl,rfl⟩,bytes,.inr fourFifths_fraction⟩
  | some node =>
    cases node with
    | table source tbl =>
      refine ((rejectUnknownKeys_meets _ _ tbl).bind fun _ _ => (policyOf_meets tbl).bind fun _ policy =>
        (optInt_meets tbl _ _ _ _ _ bytes).bind fun _ bytes =>
        (optDouble_meets print tbl _ _ _ fourFifths_fraction).bind fun _ threshold => Meets.pure ?_).iff ?_
      · exact ⟨⟨policy,bytes.1,threshold.1⟩,bytes.2,threshold.2⟩
      · simp [sectionConforms,tableConforms,routingFields]
    | _ => exact fun admitted => by cases admitted

end Sections
section Backends

-- The name a backend gives is not among those already taken.
def Fresh (seenNames : List Bytes) (tbl : Table) : Prop := ∀ name, nameOf tbl = some name → name ∉ seenNames

theorem nameOf_given (given : ∃ source, get tbl (text "name") = some (.string source name)) : nameOf tbl = some name := by
  obtain ⟨source,found⟩ := given
  rw [nameOf,found]

theorem fresh_iff (named : nameOf tbl = some name) : Fresh seenNames tbl ↔ name ∉ seenNames := by
  constructor
  · exact fun fresh => fresh name named
  · intro unseen other same
    rw [named] at same
    cases same
    exact unseen

theorem parseBackend_meets (seenNames : List Bytes) (tbl : Table) :
    Meets (parseBackend seenNames tbl) (tableConforms backendFields tbl = true ∧ Fresh seenNames tbl) fun b =>
      BackendGiven tbl b ∧ BackendInRange b := by
  obtain ⟨_,_,_,_,_,_,_,flight,interval,failures,window⟩ := defaults_within
  unfold parseBackend
  refine ((rejectUnknownKeys_meets _ _ tbl).bind fun _ _ => (reqString_meets tbl _ _).bind fun name named =>
    ((claimName_meets seenNames name).iff (fresh_iff (nameOf_given named)).symm).bind fun _ _ =>
    (typeOf_meets tbl name).bind fun _ type => (reqString_meets tbl _ _).bind fun _ url =>
    (modelsOf_meets tbl name).bind fun _ models =>
    (optInt_meets tbl _ _ _ _ _ flight).bind fun _ flight => (optInt_meets tbl _ _ _ _ _ interval).bind fun _ interval =>
    (optInt_meets tbl _ _ _ _ _ failures).bind fun _ failures => (optInt_meets tbl _ _ _ _ _ window).bind fun _ window =>
    Meets.pure ?_).iff ?_
  · exact ⟨⟨nameOf_given named,type,url,models,flight.1,interval.1,failures.1,window.1⟩,flight.2,interval.2,failures.2,window.2⟩
  · simp only [tableConforms,backendFields,List.map_cons,List.map_nil,List.all_cons,List.all_nil,Bool.and_eq_true,and_true]
    constructor
    · rintro ⟨known,name,fresh,rest⟩
      exact ⟨⟨known,name,rest⟩,fresh⟩
    · rintro ⟨⟨known,name,rest⟩,fresh⟩
      exact ⟨known,name,fresh,rest⟩

theorem fresh_cons (named : nameOf tbl = some name) :
    Fresh (name :: seenNames) other ↔ Fresh seenNames other ∧ nameOf tbl ≠ nameOf other := by
  rw [named]
  simp only [Fresh,List.mem_cons,not_or]
  constructor
  · intro fresh
    refine ⟨fun found same => (fresh found same).2,fun same => ?_⟩
    exact (fresh name same.symm).1 rfl
  · rintro ⟨fresh,different⟩ found same
    refine ⟨?_,fresh found same⟩
    rintro rfl
    exact different same.symm

def Admissible (seenNames : List Bytes) (tables : List Table) : Prop :=
  (∀ tbl ∈ tables, tableConforms backendFields tbl = true) ∧ (tables.map nameOf).Nodup ∧ ∀ tbl ∈ tables, Fresh seenNames tbl

theorem admissible_cons (named : nameOf tbl = some name) :
    Admissible seenNames (tbl :: rest) ↔
      (tableConforms backendFields tbl = true ∧ Fresh seenNames tbl) ∧ Admissible (name :: seenNames) rest := by
  simp only [Admissible,List.forall_mem_cons,List.map_cons,List.nodup_cons,List.mem_map,not_exists,not_and,fresh_cons named]
  constructor
  · rintro ⟨⟨own,all⟩,⟨other,apart⟩,fresh,others⟩
    exact ⟨⟨own,fresh⟩,all,apart,fun next member => ⟨others next member,Ne.symm (other next member)⟩⟩
  · rintro ⟨⟨own,fresh⟩,all,apart,others⟩
    exact ⟨⟨own,all⟩,⟨fun next member => Ne.symm (others next member).2,apart⟩,fresh,fun next member => (others next member).1⟩

theorem admissible_head (admissible : Admissible seenNames (tbl :: rest)) :
    tableConforms backendFields tbl = true ∧ Fresh seenNames tbl :=
  ⟨admissible.1 tbl List.mem_cons_self,admissible.2.2 tbl List.mem_cons_self⟩

theorem parseBackendList_meets (seenNames : List Bytes) (tables : List Table) :
    Meets (parseBackendList seenNames tables) (Admissible seenNames tables) fun backends =>
      List.Forall₂ BackendGiven tables backends ∧ ∀ b ∈ backends, BackendInRange b := by
  induction tables generalizing seenNames with
  | nil => exact ⟨⟨by simp,by simp,by simp⟩,.nil,by simp⟩
  | cons tbl rest ih =>
    have first := parseBackend_meets seenNames tbl
    rw [parseBackendList]
    cases parsed : parseBackend seenNames tbl with
    | error e =>
      rw [parsed] at first
      exact fun admissible => first (admissible_head admissible)
    | ok b =>
      obtain ⟨own,given⟩ := first.returns parsed
      refine Meets.iff ((ih (b.name :: seenNames)).bind fun more others => Meets.pure ?_) ?_
      · exact ⟨.cons given.1 others.1,List.forall_mem_cons.mpr ⟨given.2,others.2⟩⟩
      · rw [admissible_cons given.1.name,and_true]
        exact ⟨fun later => ⟨own,later⟩,fun both => both.2⟩

theorem arrayOfTables_given (listed : arrayOfTables node = some tables) : tables ≠ [] := by
  rintro rfl
  cases node with
  | array source items =>
    cases items with
    | nil => cases listed
    | cons item more =>
      change (item :: more).mapM asTable = some [] at listed
      simp [List.mapM_cons,Option.bind_eq_some_iff] at listed
  | _ => cases listed

theorem parseBackends_meets (root : Table) :
    Meets (parseBackends root) (backendsConform (get root (text "backends")) = true) fun backends =>
      (∃ node tables, get root (text "backends") = some node ∧ arrayOfTables node = some tables ∧
        List.Forall₂ BackendGiven tables backends) ∧ ∀ b ∈ backends, BackendInRange b := by
  unfold parseBackends backendsConform
  cases found : get root (text "backends") with
  | none => exact fun admitted => by cases admitted
  | some node =>
    rw [Option.bind_some]
    dsimp only
    cases listed : arrayOfTables node with
    | none => exact fun admitted => by cases admitted
    | some tables =>
      cases tables with
      | nil => exact absurd rfl (arrayOfTables_given listed)
      | cons tbl rest =>
        refine Meets.iff ((parseBackendList_meets [] (tbl :: rest)).imp fun backends given => ?_) ?_
        · exact ⟨⟨node,_,rfl,listed,given.1⟩,given.2⟩
        · simp [Admissible,Fresh]

end Backends
section Acceptance

def nanThreshold (root : Table) : Bool := nanAt (entries (get root (text "routing"))) (text "load_threshold")

theorem validate_meets (print : Double → Bytes) (root : Table) :
    Meets (validate print root) (conformsWith .unrefused root = true) fun cfg =>
      Reproduces root cfg ∧ Bounded cfg ∧ (nanThreshold root = true ∨ isFraction cfg.routing.loadThreshold = true) := by
  unfold validate
  refine ((rejectUnknownKeys_meets _ _ root).bind fun _ _ => (parseServer_meets root).bind fun _ server =>
    (parseMetrics_meets root).bind fun _ metrics => (parseRouting_meets print root).bind fun _ routing =>
    (parseBackends_meets root).bind fun _ backends => Meets.pure ?_).iff ?_
  · exact ⟨⟨server.1,metrics.1,routing.1,backends.1⟩,⟨server.2,metrics.2,routing.2.1,backends.2⟩,routing.2.2⟩
  · simp only [conformsWith,Bool.and_eq_true,and_assoc,and_true]

-- The threshold's kind decides for the threshold alone.
theorem threshold_admits (same : Field.admits ⟨text "load_threshold",first,false⟩ (entries (get root (text "routing"))) =
      Field.admits ⟨text "load_threshold",second,false⟩ (entries (get root (text "routing")))) :
    conformsWith first root = conformsWith second root := by
  have routing : sectionConforms (routingFields first) (get root (text "routing")) =
      sectionConforms (routingFields second) (get root (text "routing")) := by
    cases found : get root (text "routing") with
    | none => rfl
    | some node =>
      cases node with
      | table source tbl =>
        rw [found] at same
        change Field.admits _ tbl = Field.admits _ tbl at same
        simp only [sectionConforms,tableConforms,routingFields,List.map_cons,List.map_nil,List.all_cons,same]
      | _ => rfl
  rw [conformsWith,conformsWith,routing]

theorem unrefused_number (number : nanThreshold root = false) : conformsWith .unrefused root = conformsWith .fraction root := by
  apply threshold_admits
  unfold nanThreshold nanAt at number
  unfold Field.admits
  dsimp only
  split
  · rfl
  · rename_i node found
    rw [found] at number
    cases node with
    | floating source d =>
      change isNaN d = false at number
      change (isFraction d || isNaN d) = isFraction d
      rw [number,Bool.or_false]
    | _ => rfl

theorem unrefused_nan (nan : nanThreshold root = true) : conformsWith .unrefused root = conformsWith .anything root := by
  apply threshold_admits
  unfold nanThreshold nanAt at nan
  unfold Field.admits
  dsimp only
  split
  · rfl
  · rename_i node found
    rw [found] at nan
    cases node with
    | floating source d =>
      change isNaN d = true at nan
      change (isFraction d || isNaN d) = true
      rw [nan,Bool.or_true]
    | _ => cases nan

theorem conforms_threshold (fits : conformsWith kind root = true) :
    Field.admits ⟨text "load_threshold",kind,false⟩ (entries (get root (text "routing"))) = true := by
  simp only [conformsWith,Bool.and_eq_true] at fits
  obtain ⟨⟨_,routing⟩,_⟩ := fits
  cases found : get root (text "routing") with
  | none => rfl
  | some node =>
    rw [found] at routing
    cases node with
    | table source tbl =>
      simp only [sectionConforms,tableConforms,routingFields,List.all_cons,Bool.and_eq_true] at routing
      exact routing.2.2.2.1
    | _ => rfl

theorem conforms_number (fits : conforms root = true) : nanThreshold root = false := by
  have admitted := conforms_threshold fits
  unfold Field.admits at admitted
  unfold nanThreshold nanAt
  split
  · rename_i source d found
    rw [found] at admitted
    exact (le_number (Bool.and_eq_true_iff.mp admitted).1).2
  · rfl

-- The loader takes the documents of the schema and no others, keeps what they
-- give, and leaves every number in its range.
def Exact (print : Double → Bytes) (root : Table) : Prop :=
  ((∃ cfg, validate print root = .ok cfg) ↔ conforms root = true) ∧
  ∀ cfg, validate print root = .ok cfg → Reproduces root cfg ∧ InRange cfg

theorem validate_exact (print : Double → Bytes) (root : Table) :
    Exact print root ↔ ¬(nanThreshold root = true ∧ conformsWith .anything root = true) := by
  have meets := validate_meets print root
  constructor
  · rintro ⟨accepts,_⟩ ⟨nan,rest⟩
    rw [← unrefused_nan nan,← meets.accepts_iff,accepts] at rest
    rw [conforms_number rest] at nan
    cases nan
  · intro number
    cases nan : nanThreshold root with
    | true =>
      have refused : ¬conformsWith .unrefused root = true := by
        rw [unrefused_nan nan]
        exact fun rest => number ⟨nan,rest⟩
      refine ⟨⟨fun ok => absurd (meets.accepts_iff.mp ok) refused,fun fits => ?_⟩,fun cfg ok => ?_⟩
      · rw [conforms_number fits] at nan
        cases nan
      · exact absurd (meets.accepts_iff.mp ⟨cfg,ok⟩) refused
    | false =>
      have same : conformsWith .unrefused root = conforms root := unrefused_number nan
      refine ⟨?_,fun cfg ok => ?_⟩
      · rw [← same]
        exact meets.accepts_iff
      · obtain ⟨_,given,bounded,threshold⟩ := meets.returns ok
        rw [nan] at threshold
        exact ⟨given,bounded,threshold.resolve_left (by decide)⟩

-- A threshold that is no number at all, in an otherwise plain document.
def nanRoot : Table :=
  [(text "backends",.array ⟨3,1⟩ [.table ⟨3,1⟩ [
      (text "base_url",.string ⟨6,12⟩ (text "http://127.0.0.1:11434")),
      (text "models",.array ⟨7,10⟩ [.string ⟨7,11⟩ (text "m")]),
      (text "name",.string ⟨4,8⟩ (text "ollama")),
      (text "type",.string ⟨5,8⟩ (text "ollama"))]]),
    (text "routing",.table ⟨1,1⟩ [(text "load_threshold",.floating ⟨2,18⟩ nan)])]

def nanConfig : Config where
  routing := {loadThreshold := nan}
  backends := [⟨text "ollama",.ollama,text "http://127.0.0.1:11434",[text "m"],8,2000,5,10000⟩]

theorem nan_accepted :
    validate (fun _ => []) nanRoot = .ok nanConfig ∧ conforms nanRoot = false ∧
      isFraction nanConfig.routing.loadThreshold = false ∧ ¬Exact (fun _ => []) nanRoot := by
  have accepted : validate (fun _ => []) nanRoot = .ok nanConfig := by decide +kernel
  have refused : conforms nanRoot = false := by decide +kernel
  refine ⟨accepted,refused,by decide +kernel,fun exact_ => ?_⟩
  have fits := exact_.1.mp ⟨nanConfig,accepted⟩
  rw [refused] at fits
  cases fits

end Acceptance
section Runtime

-- What request handling is given of a configuration that keeps its ranges.
def Within.value (fits : Within low high v) : IntIn low.toInt high.toInt :=
  ⟨v.toInt,Int32.le_iff_toInt_le.mp fits.1,Int32.le_iff_toInt_le.mp fits.2⟩

def BackendConfig.runtime (b : BackendConfig) (fits : BackendInRange b) : Kvmux.BackendConfig where
  name := b.name
  models := b.models
  maxInFlight := fits.maxInFlight.value
  failureThreshold := fits.failureThreshold.value
  openMs := fits.openMs.value

end Runtime
end Kvmux.ConfigLoader
