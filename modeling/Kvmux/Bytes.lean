import Mathlib.Data.List.Basic

namespace Kvmux

abbrev Bytes := List UInt8

def text (s : String) : Bytes := s.toUTF8.data.toList

def lf : UInt8 := 10

def cr : UInt8 := 13

def colon : UInt8 := 58

def space : UInt8 := 32

end Kvmux
