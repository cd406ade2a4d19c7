import PqcScan.Python.Value

/-!
# Findings

The in-memory finding of `core/types.py` and its enumerations.
-/

namespace PqcScan
namespace Core

open Library Python

/-- Quantum-threat tier of a finding. -/
inductive Classification
  | sangatTinggi
  | tinggi
  | sederhana
  | rendah
  | pqcReady
  | info
  | error
  deriving DecidableEq, Repr

/-- The stored value of a classification. -/
def Classification.value : Classification → String
  | .sangatTinggi => "sangat-tinggi"
  | .tinggi => "tinggi"
  | .sederhana => "sederhana"
  | .rendah => "rendah"
  | .pqcReady => "pqc-ready"
  | .info => "info"
  | .error => "error"

/-- Severity of a finding. -/
inductive Severity
  | crit
  | high
  | med
  | low
  | info
  deriving DecidableEq, Repr

/-- The stored value of a severity. -/
def Severity.value : Severity → String
  | .crit => "crit"
  | .high => "high"
  | .med => "med"
  | .low => "low"
  | .info => "info"

/-- A finding before it is stored. -/
structure Finding where
  probeId : String
  algorithm : String
  classification : Classification
  severity : Severity
  title : String
  evidence : Dict String Json
  remediation : Dict String Json := Dict.empty
  createdAt : DateTime

/-- What the parity key reads of a finding, stored or not. -/
structure ParityRow where
  probeId : String
  algorithm : String
  title : String
  evidence : Dict String Json

end Core
end PqcScan
