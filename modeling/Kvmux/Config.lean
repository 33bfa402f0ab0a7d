import Mathlib.Data.List.Basic
import Kvmux.Bytes

namespace Kvmux

-- The part of a validated configuration that request handling reads. A value
-- outside the range the loader accepts cannot be written down.
def IntIn (low high : Int) : Type := {value : Int // low ≤ value ∧ value ≤ high}

structure BackendConfig where
  name : Bytes
  models : List Bytes
  maxInFlight : IntIn 1 1000000 := ⟨8,by decide⟩
  failureThreshold : IntIn 1 1000000 := ⟨5,by decide⟩
  openMs : IntIn 1 3600000 := ⟨10000,by decide⟩

structure ServerConfig where
  maxConcurrentStreams : IntIn 1 1000000 := ⟨256,by decide⟩
  queueDepth : IntIn 0 1000000 := ⟨64,by decide⟩

inductive RoutingPolicy where
  | prefixAffinity
  | roundRobin
  deriving DecidableEq, Repr

structure RoutingConfig where
  policy : RoutingPolicy := .prefixAffinity
  prefixBytes : IntIn 1 1048576 := ⟨1024,by decide⟩
  loadThreshold : Float := 0.8

structure Config where
  server : ServerConfig := {}
  routing : RoutingConfig := {}
  backends : List BackendConfig

end Kvmux
