import CorridorTrust.Text.Blank
import CorridorTrust.Text.Match

namespace CorridorTrust

inductive Tag where
  | rmt
  | rrmt
  | cort
  | psrt
  | imt
  | amls
  | amlv
deriving DecidableEq, Repr

namespace Tag

def all : List Tag := [.rmt, .rrmt, .cort, .psrt, .imt, .amls, .amlv]

def text : Tag → String
  | .rmt => "RMT"
  | .rrmt => "RRMT"
  | .cort => "CORT"
  | .psrt => "PSRT"
  | .imt => "IMT"
  | .amls => "AMLS"
  | .amlv => "AMLV"

def key (t : Tag) : String := Text.foldCase t.text

def keyOf (raw : String) : String := Text.foldCase (Text.trim raw)

def isNamedBy (t : Tag) (raw : String) : Bool := Text.equalUpToCase (Text.trim raw) t.text

def ofText? (raw : String) : Option Tag := all.find? (·.isNamedBy raw)

def detectionOrder : List Tag := [.rrmt, .cort, .psrt, .imt, .rmt, .amls, .amlv]

def detect? (uri : String) : Option Tag :=
  detectionOrder.find? fun t => Text.contains uri (":" ++ t.text ++ ":")

end Tag

end CorridorTrust
