import Mathlib.Data.List.Basic
import Mathlib.Data.List.Infix
import Kvmux.Capacity
import Kvmux.ConfigSchema
import Kvmux.Server

namespace Kvmux.Boot
open Binary64 ConfigLoader

section Address

structure Target where
  host : Bytes
  port : Bytes
  deriving DecidableEq

def slash : UInt8 := 47

-- What is left of a URL without its scheme: host and port, up to any path.
def Target.ofAuthority (baseUrl s : Bytes) : Except Bytes Target :=
  let s := s.takeWhile (· != slash)
  let t : Target := if s.contains colon then ⟨s.takeWhile (· != colon),(s.dropWhile (· != colon)).drop 1⟩ else ⟨s,text "80"⟩
  if t.host.isEmpty || t.port.isEmpty then .error (text "could not parse backend base_url: " ++ baseUrl) else .ok t

def Target.parse (baseUrl : Bytes) : Except Bytes Target :=
  if text "http://" <+: baseUrl then Target.ofAuthority baseUrl (baseUrl.drop 7)
  else if text "https://" <+: baseUrl then .error (text "https upstream not supported in v1: " ++ baseUrl)
  else Target.ofAuthority baseUrl baseUrl

-- The form that the configuration is meant to have.
def Target.url (t : Target) : Bytes := text "http://" ++ t.host ++ colon :: t.port

-- A host and a port in front of a path, the port being 80 where none is named.
structure Names (s : Bytes) (t : Target) : Prop where
  host : t.host ≠ []
  port : t.port ≠ []
  plain : colon ∉ t.host
  authority : ∃ authority path, s = authority ++ path ∧ slash ∉ authority ∧ (path = [] ∨ ∃ rest, path = slash :: rest) ∧
    ((authority = t.host ∧ t.port = text "80") ∨ authority = t.host ++ colon :: t.port)

section Splitting
variable {mark : UInt8} {first rest : Bytes}

-- A piece without the mark, up to the mark or to the end.
theorem takeWhile_piece (clear : mark ∉ first) (ends : rest = [] ∨ ∃ more, rest = mark :: more) :
    (first ++ rest).takeWhile (· != mark) = first ∧ (first ++ rest).dropWhile (· != mark) = rest := by
  have passes : ∀ c ∈ first, (c != mark) = true := by
    intro c member
    have differs : c ≠ mark := fun same => clear (same ▸ member)
    simpa using differs
  rw [List.takeWhile_append_of_pos passes,List.dropWhile_append_of_pos passes]
  obtain rfl | ⟨more,rfl⟩ := ends
  · simp
  · simp

theorem split_piece (mark : UInt8) (s : Bytes) : ∃ first rest, s = first ++ rest ∧ mark ∉ first ∧
    (rest = [] ∨ ∃ more, rest = mark :: more) := by
  refine ⟨s.takeWhile (· != mark),s.dropWhile (· != mark),List.takeWhile_append_dropWhile.symm,fun member => ?_,?_⟩
  · have passes := List.mem_takeWhile_imp member
    simp at passes
  · cases left : s.dropWhile (· != mark) with
    | nil => exact .inl rfl
    | cons c more =>
      have stops := List.head_dropWhile_not (· != mark) (l := s) (by rw [left]; exact List.cons_ne_nil _ _)
      simp only [left,List.head_cons] at stops
      exact .inr ⟨more,by simpa using stops⟩

end Splitting

def portOf (tail : Bytes) : Bytes := if tail = [] then text "80" else tail.drop 1

theorem ofAuthority_pieces (unslashed : slash ∉ host ++ tail) (ends : path = [] ∨ ∃ rest, path = slash :: rest)
    (unmarked : colon ∉ host) (stops : tail = [] ∨ ∃ port, tail = colon :: port) :
    Target.ofAuthority baseUrl (host ++ tail ++ path) = .ok t ↔ host ≠ [] ∧ portOf tail ≠ [] ∧ t = ⟨host,portOf tail⟩ := by
  obtain ⟨taken,dropped⟩ := takeWhile_piece unmarked stops
  have chosen : (if (host ++ tail).contains colon then (⟨host,tail.drop 1⟩ : Target) else ⟨host ++ tail,text "80"⟩) =
      ⟨host,portOf tail⟩ := by
    obtain rfl | ⟨port,rfl⟩ := stops
    · simp [portOf,unmarked]
    · simp [portOf]
  unfold Target.ofAuthority
  rw [(takeWhile_piece unslashed ends).1]
  dsimp only
  rw [taken,dropped,chosen]
  by_cases none : host = [] ∨ portOf tail = []
  · rw [if_pos (by simpa using none)]
    refine ⟨nofun,fun ⟨named,ported,_⟩ => ?_⟩
    exact absurd none (not_or.mpr ⟨named,ported⟩)
  · rw [if_neg (by simpa using none)]
    obtain ⟨named,ported⟩ := not_or.mp none
    exact ⟨fun same => ⟨named,ported,(Except.ok.inj same).symm⟩,fun ⟨_,_,same⟩ => by rw [same]⟩

theorem ofAuthority_names (baseUrl s : Bytes) (t : Target) : Target.ofAuthority baseUrl s = .ok t ↔ Names s t := by
  obtain ⟨authority,path,rfl,unslashed,ends⟩ := split_piece slash s
  obtain ⟨host,tail,rfl,unmarked,stops⟩ := split_piece colon authority
  rw [ofAuthority_pieces unslashed ends unmarked stops]
  constructor
  · rintro ⟨named,ported,rfl⟩
    refine ⟨named,ported,unmarked,_,path,rfl,unslashed,ends,?_⟩
    obtain rfl | ⟨port,rfl⟩ := stops
    · exact .inl ⟨List.append_nil _,rfl⟩
    · exact .inr rfl
  · rintro ⟨named,ported,plain,other,further,same,clear,rests,shape⟩
    -- both split at the first slash, and then at the first colon
    have whole : other = host ++ tail := by
      rw [← (takeWhile_piece clear rests).1,← same,(takeWhile_piece unslashed ends).1]
    have ending : t.host = host ∧ t.port = portOf tail := by
      obtain ⟨alone,eighty⟩ | both := shape
      · rw [alone] at whole
        obtain rfl | ⟨port,rfl⟩ := stops
        · exact ⟨whole.trans (List.append_nil _),eighty⟩
        · exact absurd (by rw [whole]; simp) plain
      · rw [both] at whole
        have one := takeWhile_piece plain (.inr ⟨t.port,rfl⟩)
        have two := takeWhile_piece unmarked stops
        rw [whole] at one
        have rest : tail = colon :: t.port := two.2.symm.trans one.2
        exact ⟨one.1.symm.trans two.1,by rw [rest]; rfl⟩
    obtain ⟨host_,port_⟩ := t
    obtain ⟨rfl,rfl⟩ := ending
    exact ⟨named,ported,rfl⟩

theorem scheme_dropped (s : Bytes) : (text "http://" ++ s).drop 7 = s := List.drop_left' (by decide +kernel)

theorem parse_scheme (s : Bytes) (t : Target) : Target.parse (text "http://" ++ s) = .ok t ↔ Names s t := by
  rw [Target.parse,if_pos (List.prefix_append _ s),scheme_dropped]
  exact ofAuthority_names _ s t

-- The port may have been left out; host and port are free of slashes all the same.
theorem Names.again (names : Names s t) (ends : path = [] ∨ ∃ rest, path = slash :: rest) :
    Names (t.host ++ colon :: t.port ++ path) t := by
  obtain ⟨named,ported,plain,authority,_,-,clear,-,shape⟩ := names
  refine ⟨named,ported,plain,_,path,rfl,?_,ends,.inr rfl⟩
  obtain ⟨rfl,eighty⟩ | rfl := shape
  · have other : slash ∉ colon :: text "80" := by decide +kernel
    rw [eighty]
    exact fun member => (List.mem_append.mp member).elim clear other
  · exact clear

-- What a base URL stands for, with the scheme http or none.
inductive Addresses : Bytes → Target → Prop where
  | schemed (names : Names s t) : Addresses (text "http://" ++ s) t
  | bare (open_ : ¬text "http://" <+: s) (secure : ¬text "https://" <+: s) (names : Names s t) : Addresses s t

theorem parse_addresses (baseUrl : Bytes) (t : Target) : Target.parse baseUrl = .ok t ↔ Addresses baseUrl t := by
  by_cases schemed : text "http://" <+: baseUrl
  · obtain ⟨s,rfl⟩ := schemed
    rw [parse_scheme]
    constructor
    · exact .schemed
    · generalize given : text "http://" ++ s = url
      rintro (⟨names⟩ | ⟨never,-,-⟩)
      · rwa [List.append_cancel_left given]
      · exact absurd (given ▸ List.prefix_append _ s) never
  · rw [Target.parse,if_neg schemed]
    by_cases secure : text "https://" <+: baseUrl
    · rw [if_pos secure]
      constructor
      · nofun
      · rintro (⟨-⟩ | ⟨-,never,-⟩)
        · exact absurd (List.prefix_append _ _) schemed
        · exact absurd secure never
    · rw [if_neg secure,ofAuthority_names]
      constructor
      · exact .bare schemed secure
      · rintro (⟨-⟩ | ⟨-,-,names⟩)
        · exact absurd (List.prefix_append _ _) schemed
        · exact names

-- A base URL is accepted exactly if it names a host and a port; what it is accepted
-- as can be written in full and is accepted as the same again, in front of any path.
theorem target_exact (baseUrl : Bytes) (t : Target) :
    (Target.parse baseUrl = .ok t ↔ Addresses baseUrl t) ∧
    (Target.parse baseUrl = .ok t → ∀ path, path = [] ∨ (∃ rest, path = slash :: rest) → Target.parse (t.url ++ path) = .ok t) := by
  refine ⟨parse_addresses baseUrl t,fun parsed path ends => ?_⟩
  have names : ∃ s, Names s t := by
    obtain ⟨names⟩ | ⟨-,-,names⟩ := (parse_addresses baseUrl t).mp parsed <;> exact ⟨_,names⟩
  obtain ⟨s,names⟩ := names
  rw [Target.url,List.append_assoc,List.append_assoc,parse_scheme,← List.append_assoc]
  exact names.again ends

end Address
section Startup

-- What the process takes from its surroundings and from other libraries.
structure Platform where
  json : JsonLib
  xxh64 : Bytes → UInt64
  print : Float → Bytes
  printDouble : Double → Bytes
  readFile : Bytes → Option Bytes
  parseToml : Bytes → Except (Bytes × Source) Table
  Address : Type
  makeAddress : Bytes → Except Bytes Address

-- All a configuration is known to keep once it is accepted: the load threshold may
-- still be no number.
abbrev Accepted := {cfg : ConfigLoader.Config // Bounded cfg}

theorem validate_bounded (accepted : validate print root = .ok cfg) : Bounded cfg :=
  ((validate_meets print root).returns accepted).2.2.1

def accept (print : Double → Bytes) (root : Table) : Checked Accepted :=
  match accepted : validate print root with
  | .ok cfg => .ok ⟨cfg,validate_bounded accepted⟩
  | .error e => .error e

def loadString (platform : Platform) (toml sourceName : Bytes) : Checked Accepted :=
  match platform.parseToml toml with
  | .ok root => accept platform.printDouble root
  | .error (description,source) =>
    fail (text "TOML parse error in " ++ sourceName ++ text ": " ++ description ++ text " (line " ++ text (toString source.line) ++
      text ", col " ++ text (toString source.column) ++ text ")")

def loadFile (platform : Platform) (path : Bytes) : Checked Accepted :=
  match platform.readFile path with
  | none => fail (text "cannot open config file: " ++ path)
  | some toml => loadString platform toml path

-- What request handling is given of it.
def runtime (cfg : Accepted) : Kvmux.Config where
  server :=
    {maxConcurrentStreams := cfg.2.server.maxConcurrentStreams.value,queueDepth := cfg.2.server.queueDepth.value}
  routing :=
    {policy := cfg.1.routing.policy,prefixBytes := cfg.2.prefixBytes.value,
      loadThreshold := Float.ofBits (bits cfg.1.routing.loadThreshold)}
  backends := cfg.1.backends.attach.map fun b => b.1.runtime (cfg.2.backends b.1 b.2)

def setupOf (platform : Platform) (cfg : Accepted) : Server.Setup where
  env := ⟨runtime cfg,platform.json,platform.xxh64⟩
  print := platform.print
  probes := cfg.1.backends.map fun b => (b.type,b.healthIntervalMs.toInt * 1000000)
  paired := by simp [runtime]

def kVersion : Bytes := text "0.1.0"

def usage : Bytes :=
  text "kvmux " ++ kVersion ++ text "\n" ++ text "usage: kvmux --config <path.toml>\n" ++ text "       kvmux --version\n"

-- The arguments leave a path, or are answered at once.
inductive Scanned where
  | path (configPath : Bytes)
  | answered (out : Bytes)
  deriving DecidableEq

def scanFlag (arg : Bytes) (others : Scanned) : Scanned :=
  if arg = text "--version" then .answered (text "kvmux " ++ kVersion ++ text "\n")
  else if arg = text "--help" ∨ arg = text "-h" then .answered usage
  else others

def scanArgs : Bytes → List Bytes → Scanned
  | configPath,[] => .path configPath
  -- Nothing follows the last argument, so `--config` is no option there.
  | configPath,[arg] => scanFlag arg (.path configPath)
  | configPath,arg :: next :: rest =>
    if arg = text "--config" ∨ arg = text "-c" then scanArgs next rest else scanFlag arg (scanArgs configPath (next :: rest))

structure Started (Address : Type) where
  setup : Server.Setup
  targets : List Target
  address : Address
  port : UInt16
  metricsPort : UInt16

inductive Outcome (Address : Type) where
  | exited (code : Nat) (out err : Bytes)
  | serving (out : Bytes) (started : Started Address)

def Outcome.running {Address : Type} : Outcome Address → Option (Started Address)
  | .serving _ started => some started
  | .exited _ _ _ => none

def assemble (platform : Platform) (cfg : Accepted) : Except Bytes (Started platform.Address) := do
  let targets ← cfg.1.backends.mapM fun b => Target.parse b.baseUrl
  let address ← platform.makeAddress cfg.1.server.listen
  pure ⟨setupOf platform cfg,targets,address,cfg.1.server.port.toUInt32.toUInt16,cfg.1.metrics.port.toUInt32.toUInt16⟩

def loaded (configPath : Bytes) (cfg : ConfigLoader.Config) : Bytes :=
  text "kvmux " ++ kVersion ++ text " — loaded " ++ configPath ++ text " (" ++ text (toString cfg.backends.length) ++
    text " backend(s), policy=" ++ policySpelling cfg.routing.policy ++ text ")\n"

def main (platform : Platform) (args : List Bytes) : Outcome platform.Address :=
  match scanArgs [] args with
  | .answered out => .exited 0 out []
  | .path configPath =>
    if configPath.isEmpty then .exited 2 usage (text "error: --config <path.toml> is required\n")
    else match loadFile platform configPath with
      | .error e => .exited 2 [] (text "config error: " ++ e.message ++ text "\n")
      | .ok cfg =>
        match assemble platform cfg with
        | .error what => .exited 1 (loaded configPath cfg.1) (text "fatal: " ++ what ++ text "\n")
        | .ok started => .serving (loaded configPath cfg.1) started

end Startup
section Limits
open Coroutine Ledger GlobalGate Fleet Gateway Capacity

theorem accept_validated (accepted : accept print root = .ok cfg) : validate print root = .ok cfg.1 := by
  unfold accept at accepted
  split at accepted
  · rename_i ok
    cases accepted
    exact ok
  · cases accepted

theorem loadFile_validated (ok : loadFile platform path = .ok cfg) : ∃ toml root, platform.readFile path = some toml ∧
    platform.parseToml toml = .ok root ∧ validate platform.printDouble root = .ok cfg.1 := by
  unfold loadFile at ok
  split at ok
  · cases ok
  · rename_i toml found
    unfold loadString at ok
    split at ok
    · rename_i root parsed
      exact ⟨toml,root,found,parsed,accept_validated ok⟩
    · cases ok

theorem serving_loaded (served : main platform args = .serving out started) : ∃ path cfg, scanArgs [] args = .path path ∧
    loadFile platform path = .ok cfg ∧ assemble platform cfg = .ok started := by
  unfold main at served
  split at served
  · cases served
  · rename_i path scanned
    split at served
    · cases served
    · split at served
      · cases served
      · rename_i cfg ok
        split at served
        · cases served
        · rename_i assembled
          cases served
          exact ⟨path,cfg,scanned,ok,assembled⟩

theorem parse_meets (b : ConfigLoader.BackendConfig) : Acceptance.Meets (Target.parse b.baseUrl) (∃ t, Addresses b.baseUrl t)
    fun t => Addresses b.baseUrl t := by
  cases parsed : Target.parse b.baseUrl with
  | ok t =>
    have stands := (parse_addresses _ t).mp parsed
    exact ⟨⟨t,stands⟩,stands⟩
  | error what =>
    rintro ⟨t,stands⟩
    rw [(parse_addresses _ t).mpr stands] at parsed
    cases parsed

theorem assemble_started (assembled : assemble platform cfg = .ok started) : started.setup = setupOf platform cfg ∧
    List.Forall₂ (fun b t => Addresses b.baseUrl t) cfg.1.backends started.targets ∧
    platform.makeAddress cfg.1.server.listen = .ok started.address ∧
    started.port = cfg.1.server.port.toUInt32.toUInt16 ∧ started.metricsPort = cfg.1.metrics.port.toUInt32.toUInt16 := by
  unfold assemble at assembled
  have each := Acceptance.Meets.mapM parse_meets cfg.1.backends
  cases parsed : cfg.1.backends.mapM (fun b => Target.parse b.baseUrl) with
  | error what => simp [parsed,bind,Except.bind] at assembled
  | ok targets =>
    have stand := (each.returns parsed).2
    cases found : platform.makeAddress cfg.1.server.listen with
    | error what => simp [parsed,found,bind,Except.bind] at assembled
    | ok address =>
      simp only [parsed,found,bind,Except.bind,pure,Except.pure,Except.ok.injEq] at assembled
      subst assembled
      exact ⟨rfl,stand,rfl,rfl,rfl⟩

theorem port_kept (fits : Within 1 65535 port) : (port.toUInt32.toUInt16.toNat : Int) = port.toInt := by
  have low : 1 ≤ port.toInt := Int32.le_iff_toInt_le.mp fits.1
  have high : port.toInt ≤ 65535 := Int32.le_iff_toInt_le.mp fits.2
  -- a port that is not negative is read the same without its sign
  have unsigned : port.toInt = Int.bmod port.toUInt32.toNat (2 ^ 32) := BitVec.toInt_eq_toNat_bmod port.toBitVec
  have small := port.toUInt32.toNat_lt
  rw [UInt32.toNat_toUInt16]
  rw [Int.bmod_def] at unsigned
  split at unsigned <;> omega

theorem exec_depth (i : Nat) (op : Op) (s : State) : (exec i op s).2.gate.queueDepth = s.gate.queueDepth := by
  cases op with
  | now | nextCursor | record | publishAdmissionGauges => rfl
  | enterGate => exact (entry_config s.gate i).2
  | resumeGate => exact (resume_config s.gate i).2
  | releaseGate => exact (release_config s.gate).2
  | observedHealth | load | allowRequest | report | releaseSlot | tryAcquire => exact congrArg Gate.queueDepth (onBackend_gate ..)

-- However the requests interleave, they stay within what they were configured with.
theorem gateways_limited (path : Fleet.Reachable env meets w) :
    w.shared.gate.inFlight ≤ env.cfg.server.maxConcurrentStreams.1 ∧
    (w.shared.gate.waiters.length : Int) ≤ env.cfg.server.queueDepth.1 ∧
    ∀ (b : Nat) conf, env.cfg.backends[b]? = some conf → ∃ backend, w.shared.backends[b]? = some backend ∧
      0 ≤ backend.limiter.active ∧ backend.limiter.active ≤ conf.maxInFlight.1 := by
  obtain ⟨hs,-,inv⟩ := accounts_reached (accounts env) (fun _ _ _ _ _ _ _ _ _ _ _ => trivial) (construct_accounted env.cfg) path
  have ceilings : Ceilings env.cfg w.shared := reached_shared (host env) exec_ceilings happen_ceilings
    ⟨rfl,by simp [limiters,construct,openBackend,Function.comp_def]⟩ path
  have depth : w.shared.gate.queueDepth = env.cfg.server.queueDepth.1 := by
    apply reached_shared (host env) (fun i op s same => (exec_depth i op s).trans same) ?_ rfl path
    exact fun event s same => (congrArg Gate.queueDepth (happen_gate event s)).trans same
  refine ⟨ceilings.1 ▸ inv.gate.cap,depth ▸ inv.gate.room,fun b conf configured => ?_⟩
  obtain ⟨backend,known,room,counted⟩ := backend_accounted inv ceilings configured
  exact ⟨backend,known,by rw [counted]; exact Int.natCast_nonneg _,room⟩

theorem runtime_backend {b : Nat} (cfg : Accepted) (listed : cfg.1.backends[b]? = some entry) :
    ∃ conf, (runtime cfg).backends[b]? = some conf ∧ conf.maxInFlight.1 = entry.maxInFlight.toInt := by
  have member := List.mem_of_getElem? listed
  obtain ⟨inside,rfl⟩ := List.getElem?_eq_some_iff.mp listed
  refine ⟨cfg.1.backends[b].runtime (cfg.2.backends _ member),?_,rfl⟩
  simp [runtime,inside]

-- A process that serves has read a document, and serves by the document's own
-- numbers: its ports are the ones written there, and whatever its clients, backends
-- and probes do, it never holds more requests than the document allows.
theorem limits_hold (served : main platform args = .serving out started) (reached : Server.Reachable started.setup meets p) :
    ∃ path toml root cfg, scanArgs [] args = .path path ∧ platform.readFile path = some toml ∧
      platform.parseToml toml = .ok root ∧ Reproduces root cfg ∧
      (started.port.toNat : Int) = cfg.server.port.toInt ∧ (started.metricsPort.toNat : Int) = cfg.metrics.port.toInt ∧
      platform.makeAddress cfg.server.listen = .ok started.address ∧
      List.Forall₂ (fun entry target => Addresses entry.baseUrl target) cfg.backends started.targets ∧
      p.gateways.shared.gate.inFlight ≤ cfg.server.maxConcurrentStreams.toInt ∧
      (p.gateways.shared.gate.waiters.length : Int) ≤ cfg.server.queueDepth.toInt ∧
      ∀ (b : Nat) entry, cfg.backends[b]? = some entry → ∃ backend, p.gateways.shared.backends[b]? = some backend ∧
        0 ≤ backend.limiter.active ∧ backend.limiter.active ≤ entry.maxInFlight.toInt := by
  obtain ⟨path,cfg,scanned,ok,assembled⟩ := serving_loaded served
  obtain ⟨toml,root,read,parsed,validated⟩ := loadFile_validated ok
  obtain ⟨setup,targets,address,port,metricsPort⟩ := assemble_started assembled
  rw [setup] at reached
  obtain ⟨streams,queue,slots⟩ := gateways_limited (Server.reachable_gateways reached)
  have given := ((validate_meets platform.printDouble root).returns validated).2.1
  refine ⟨path,toml,root,cfg.1,scanned,read,parsed,given,?_,?_,address,targets,streams,queue,fun b entry listed => ?_⟩
  · rw [port,port_kept cfg.2.server.port]
  · rw [metricsPort,port_kept cfg.2.metrics]
  · obtain ⟨conf,known,same⟩ := runtime_backend cfg listed
    rw [← same]
    exact slots b conf known

theorem running_serving {outcome : Outcome Address} (runs : outcome.running = some started) :
    ∃ out, outcome = .serving out started := by
  cases outcome with
  | exited code out err => cases runs
  | serving out other =>
    cases runs
    exact ⟨out,rfl⟩

def plainToml : Bytes :=
  text "[[backends]]\nname = \"ollama\"\ntype = \"ollama\"\n" ++
    text "base_url = \"http://127.0.0.1:11434/v1\"\nmax_in_flight = 2\nmodels = [\"m\"]\n"

-- A platform with one file, and a parser that knows its text.
def plainPlatform : Platform where
  json := (sampleEnv []).json
  xxh64 := (sampleEnv []).xxh64
  print := fun _ => []
  printDouble := fun _ => []
  readFile := fun path => if path = text "kvmux.toml" then some plainToml else none
  parseToml := fun toml =>
    if toml = plainToml then .ok [(text "backends",.array ⟨1,1⟩ [.table ⟨1,1⟩ [
      (text "base_url",.string ⟨4,12⟩ (text "http://127.0.0.1:11434/v1")),
      (text "max_in_flight",.integer ⟨5,17⟩ 2),
      (text "models",.array ⟨6,10⟩ [.string ⟨6,11⟩ (text "m")]),
      (text "name",.string ⟨2,8⟩ (text "ollama")),
      (text "type",.string ⟨3,8⟩ (text "ollama"))]])]
    else .error (text "unknown document",⟨1,1⟩)
  Address := Unit
  makeAddress := fun _ => .ok ()

theorem limits_hold_plain : ∃ out started, main plainPlatform [text "-c",text "kvmux.toml"] = .serving out started ∧
    started.targets = [⟨text "127.0.0.1",text "11434"⟩] ∧ started.port = 8080 ∧
    ∀ p, Server.Reachable started.setup Transition.Any p → ∃ root cfg, plainPlatform.parseToml plainToml = .ok root ∧
      Reproduces root cfg ∧ p.gateways.shared.gate.inFlight ≤ cfg.server.maxConcurrentStreams.toInt := by
  have starts : (main plainPlatform [text "-c",text "kvmux.toml"]).running.map (fun started => (started.targets,started.port)) =
      some ([⟨text "127.0.0.1",text "11434"⟩],8080) := by decide +kernel
  obtain ⟨started,runs,shown⟩ := Option.map_eq_some_iff.mp starts
  obtain ⟨out,served⟩ := running_serving runs
  have targets := congrArg Prod.fst shown
  have port := congrArg Prod.snd shown
  refine ⟨out,started,served,targets,port,fun p reached => ?_⟩
  obtain ⟨path,toml,root,cfg,-,read,parsed,given,-,-,-,-,streams,-⟩ := limits_hold served reached
  obtain rfl : plainToml = toml := by
    simp only [plainPlatform] at read
    split at read
    · exact Option.some.inj read
    · cases read
  exact ⟨root,cfg,parsed,given,streams⟩

end Limits
end Kvmux.Boot
