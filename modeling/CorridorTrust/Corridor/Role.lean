import CorridorTrust.Corridor.Tag

namespace CorridorTrust

inductive Role where
  | rmt
  | imt
  | cort
  | psrt
  | amls
  | amlv
deriving DecidableEq, Repr

namespace Role

def all : List Role := [.rmt, .imt, .cort, .psrt, .amls, .amlv]

def mandatory : List Role := [.rmt, .imt, .cort, .psrt]

def signed : List Role := [.rmt, .cort, .psrt]

def isSigned (r : Role) : Bool := signed.contains r

def text : Role → String
  | .rmt => "rmt"
  | .imt => "imt"
  | .cort => "cort"
  | .psrt => "psrt"
  | .amls => "amls"
  | .amlv => "amlv"

def canonicalTag : Role → Tag
  | .rmt => .rrmt
  | .imt => .imt
  | .cort => .cort
  | .psrt => .psrt
  | .amls => .amls
  | .amlv => .amlv

def tags : Role → List Tag
  | .rmt => [.rrmt, .rmt]
  | r => [r.canonicalTag]

def accepts (r : Role) (raw : String) : Bool := r.tags.any (·.isNamedBy raw)

end Role

end CorridorTrust
